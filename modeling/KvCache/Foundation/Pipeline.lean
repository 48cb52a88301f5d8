import Mathlib.Data.List.Forall2
import Mathlib.Logic.Function.Basic
import Mathlib.Logic.Relation

/-!
# A producer and a consumer over bounded queues

A producer puts batches into queues and waits where a queue has no room; a consumer takes a
number of items at a time and waits where a queue has too few. Each follows a list of its own,
and their steps interleave in any order.

Where the two lists agree, batch by batch, on queues and sizes, and every batch fits into its
queue, neither waits for ever: from every state that a run reaches the two can go on until both
are done. Whatever the order of steps, what the consumer takes at its n-th request is the n-th
batch.
-/

namespace KvCache.Pipeline

universe u v w
variable {κ : Type u} {α : Type v} {τ : Type w}

/-- Items for one queue, put at once. -/
structure Batch (κ : Type u) (α : Type v) where
  queue : κ
  items : List α

/-- A number of items of one queue, taken at once for some purpose. -/
structure Request (κ : Type u) (τ : Type w) where
  queue : κ
  count : Nat
  purpose : τ

/-- What is still to be put and to be taken, what is in the queues, and what was taken. -/
structure State (κ : Type u) (α : Type v) (τ : Type w) where
  batches : List (Batch κ α)
  requests : List (Request κ τ)
  buffers : κ → List α
  taken : List (τ × List α)

/-- The state before the first step. -/
def start (batches : List (Batch κ α)) (requests : List (Request κ τ)) : State κ α τ :=
  ⟨batches, requests, fun _ => [], []⟩

/-- Both are done. -/
def Finished (state : State κ α τ) : Prop := state.batches = [] ∧ state.requests = []

/-- A request asks for a batch, which is not empty. -/
def Meets (batch : Batch κ α) (request : Request κ τ) : Prop :=
  batch.queue = request.queue ∧ batch.items.length = request.count ∧ 0 < request.count

section Steps

variable [DecidableEq κ] (capacity : κ → Nat)

/-- One step of the producer or of the consumer. -/
inductive Step : State κ α τ → State κ α τ → Prop where
  | put {batch : Batch κ α} {batches : List (Batch κ α)} {requests : List (Request κ τ)}
      {buffers : κ → List α} {taken : List (τ × List α)}
      (room : (buffers batch.queue).length + batch.items.length ≤ capacity batch.queue) :
      Step ⟨batch :: batches, requests, buffers, taken⟩
        ⟨batches, requests,
          Function.update buffers batch.queue (buffers batch.queue ++ batch.items), taken⟩
  | take {request : Request κ τ} {batches : List (Batch κ α)} {requests : List (Request κ τ)}
      {buffers : κ → List α} {taken : List (τ × List α)}
      (enough : request.count ≤ (buffers request.queue).length) :
      Step ⟨batches, request :: requests, buffers, taken⟩
        ⟨batches, requests,
          Function.update buffers request.queue ((buffers request.queue).drop request.count),
          taken ++ [(request.purpose, (buffers request.queue).take request.count)]⟩

/-- The states that the two reach. -/
abbrev Reaches (state after : State κ α τ) : Prop :=
  Relation.ReflTransGen (Step capacity) state after

/-- What is in the queues when some batches are put and not yet taken. -/
def held (batches : List (Batch κ α)) (queue : κ) : List α :=
  (batches.filter fun batch => batch.queue = queue).flatMap Batch.items

/-- The batches fall into taken ones, held ones and those that are still to be put. -/
def Consistent (batches : List (Batch κ α)) (requests : List (Request κ τ))
    (state : State κ α τ) : Prop :=
  ∃ past between served, batches = past ++ between ++ state.batches ∧
    requests = served ++ state.requests ∧ past.length = served.length ∧
    state.buffers = held between ∧
    state.taken = (served.zip past).map fun pair => (pair.1.purpose, pair.2.items)

theorem start_consistent (batches : List (Batch κ α)) (requests : List (Request κ τ)) :
    Consistent batches requests (start batches requests) :=
  ⟨[], [], [], rfl, rfl, rfl, rfl, rfl⟩

theorem held_append (front back : List (Batch κ α)) (queue : κ) :
    held (front ++ back) queue = held front queue ++ held back queue := by
  rw [held, held, held, List.filter_append, List.flatMap_append]

theorem held_singleton (batch : Batch κ α) (queue : κ) :
    held [batch] queue = if batch.queue = queue then batch.items else [] := by
  by_cases same : batch.queue = queue <;> simp [held, same]

variable {capacity} {batches : List (Batch κ α)} {requests : List (Request κ τ)}
  {state after : State κ α τ}

/-- The batch that the next request asks for is the first that was not taken. -/
theorem next_batch (agree : List.Forall₂ Meets batches requests)
    {past between later : List (Batch κ α)} {served rest : List (Request κ τ)}
    {request : Request κ τ} (split : batches = past ++ between ++ later)
    (same : requests = served ++ request :: rest) (even : past.length = served.length) :
    ∃ batch remaining, between ++ later = batch :: remaining ∧ Meets batch request := by
  subst split same
  rw [List.append_assoc] at agree
  have drop := List.forall₂_drop past.length agree
  rw [List.drop_left, even, List.drop_left] at drop
  cases shape : between ++ later with
  | nil =>
    rw [shape] at drop
    cases drop
  | cons batch remaining =>
    rw [shape] at drop
    cases drop with
    | cons meets _ => exact ⟨batch, remaining, rfl, meets⟩

theorem Step.consistent (agree : List.Forall₂ Meets batches requests)
    (step : Step capacity state after) (consistent : Consistent batches requests state) :
    Consistent batches requests after := by
  obtain ⟨past, between, served, split, same, even, buffers, taken⟩ := consistent
  cases step with
  | @put batch later _ _ _ room =>
    refine ⟨past, between ++ [batch], served, ?_, same, even, ?_, taken⟩
    · rw [split]
      simp
    · funext queue
      dsimp only at buffers ⊢
      rw [held_append, held_singleton, buffers]
      by_cases here : batch.queue = queue
      · subst here
        simp
      · rw [Function.update_of_ne (Ne.symm here), if_neg here, List.append_nil]
  | @take request _ rest _ _ enough =>
    obtain ⟨batch, remaining, shape, queue, size, positive⟩ := next_batch agree split same even
    dsimp only at buffers taken
    cases between with
    | nil =>
      rw [buffers] at enough
      exact absurd enough (Nat.not_le.mpr positive)
    | cons first more =>
      rw [List.cons_append] at shape
      obtain ⟨rfl, _⟩ := List.cons.inj shape
      have front : held (first :: more) request.queue = first.items ++ held more request.queue := by
        rw [← List.singleton_append, held_append, held_singleton, if_pos queue]
      refine ⟨past ++ [first], more, served ++ [request], ?_, ?_, ?_, ?_, ?_⟩
      · rw [split]
        simp
      · rw [same]
        simp
      · rw [List.length_append, List.length_append, even]
        rfl
      · funext other
        dsimp only
        by_cases here : other = request.queue
        · subst here
          rw [Function.update_self, buffers, front, ← size, List.drop_left]
        · rw [Function.update_of_ne here, buffers, ← List.singleton_append, held_append,
            held_singleton, if_neg (fun there => here (there.symm.trans queue)), List.nil_append]
      · dsimp only
        rw [taken, List.zip_append even.symm, List.map_append, buffers, front, ← size,
          List.take_left]
        rfl

/-- Every state that is reached is consistent. -/
theorem reached_consistent (agree : List.Forall₂ Meets batches requests)
    (reached : Reaches capacity (start batches requests) state) :
    Consistent batches requests state := by
  induction reached with
  | refl => exact start_consistent batches requests
  | tail _ step inductionHypothesis => exact step.consistent agree inductionHypothesis

/-- Neither waits for the other: until both are done one of them can go on. -/
theorem progress (agree : List.Forall₂ Meets batches requests)
    (fits : ∀ batch ∈ batches, batch.items.length ≤ capacity batch.queue)
    (reached : Reaches capacity (start batches requests) state) (unfinished : ¬ Finished state) :
    ∃ after, Step capacity state after := by
  obtain ⟨past, between, served, split, same, even, buffers, -⟩ := reached_consistent agree reached
  obtain ⟨later, rest, contents, taken⟩ := state
  dsimp only at split same buffers
  cases rest with
  | nil =>
    -- every request is served, so every batch is past
    have counts := agree.length_eq
    rw [split, same, List.length_append, List.length_append, List.append_nil, ← even] at counts
    have none : later = [] := List.length_eq_zero_iff.mp (by omega)
    exact absurd ⟨none, rfl⟩ unfinished
  | cons request rest =>
    obtain ⟨batch, remaining, shape, queue, size, positive⟩ := next_batch agree split same even
    cases between with
    | cons first more =>
      rw [List.cons_append] at shape
      obtain ⟨rfl, _⟩ := List.cons.inj shape
      refine ⟨_, Step.take ?_⟩
      rw [buffers, ← List.singleton_append, held_append, held_singleton, if_pos queue,
        List.length_append, size]
      exact Nat.le_add_right _ _
    | nil =>
      rw [List.nil_append] at shape
      subst shape
      refine ⟨_, Step.put ?_⟩
      have member : batch ∈ batches := split ▸ List.mem_append_right _ List.mem_cons_self
      rw [buffers, held, List.filter_nil, List.flatMap_nil, List.length_nil, Nat.zero_add]
      exact fits batch member

/-- What is left to do. -/
def remaining (state : State κ α τ) : Nat := state.batches.length + state.requests.length

theorem Step.shrinks (step : Step capacity state after) : remaining after < remaining state := by
  cases step with
  | put room =>
    simp only [remaining, List.length_cons]
    omega
  | take enough =>
    simp only [remaining, List.length_cons]
    omega

/-- From every state that is reached both get done. -/
theorem finishes (agree : List.Forall₂ Meets batches requests)
    (fits : ∀ batch ∈ batches, batch.items.length ≤ capacity batch.queue)
    (reached : Reaches capacity (start batches requests) state) :
    ∃ last, Reaches capacity state last ∧ Finished last := by
  induction left : remaining state using Nat.strongRecOn generalizing state with
  | ind count inductionHypothesis =>
    by_cases done : Finished state
    · exact ⟨state, .refl, done⟩
    · obtain ⟨after, step⟩ := progress agree fits reached done
      obtain ⟨last, later, finished⟩ :=
        inductionHypothesis (remaining after) (left ▸ step.shrinks) (reached.tail step) rfl
      exact ⟨last, .head step later, finished⟩

/-- When both are done, each request has taken its batch, in order, and the queues are empty. -/
theorem finished_taken (agree : List.Forall₂ Meets batches requests)
    (reached : Reaches capacity (start batches requests) state) (finished : Finished state) :
    state.taken = (requests.zip batches).map (fun pair => (pair.1.purpose, pair.2.items)) ∧
      ∀ queue, state.buffers queue = [] := by
  obtain ⟨past, between, served, split, same, even, buffers, taken⟩ :=
    reached_consistent agree reached
  rw [finished.1, List.append_nil] at split
  rw [finished.2, List.append_nil] at same
  have counts := agree.length_eq
  rw [split, same, List.length_append, even] at counts
  have none : between = [] := List.length_eq_zero_iff.mp (by omega)
  subst none
  rw [List.append_nil] at split
  rw [taken, buffers, split, same]
  exact ⟨rfl, fun _ => rfl⟩

end Steps

end KvCache.Pipeline
