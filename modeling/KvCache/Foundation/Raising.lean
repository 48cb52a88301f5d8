import Mathlib.Data.List.Forall2

/-!
# Computations that raise

A computation in `Except` returns a value or raises an error. It succeeds where each of its
steps does, and it avoids an error where each of its steps does.
-/

namespace KvCache.Raising

universe u
variable {ε α β : Type u}

/-- A computation does not raise this error. -/
def Avoids (error : ε) (program : Except ε α) : Prop := program ≠ .error error

theorem bind_eq_ok {program : Except ε α} {next : α → Except ε β} {result : β} :
    (program >>= next) = .ok result ↔ ∃ value, program = .ok value ∧ next value = .ok result := by
  cases program with
  | ok value =>
    constructor
    · intro done
      exact ⟨value, rfl, done⟩
    · rintro ⟨_, same, done⟩
      cases same
      exact done
  | error _ => exact ⟨nofun, nofun⟩

theorem map_eq_ok {program : Except ε α} {change : α → β} {result : β} :
    program.map change = .ok result ↔ ∃ value, program = .ok value ∧ change value = result := by
  cases program with
  | ok value =>
    constructor
    · intro done
      exact ⟨value, rfl, Except.ok.inj done⟩
    · rintro ⟨_, same, rfl⟩
      cases same
      rfl
  | error error => exact ⟨nofun, nofun⟩

namespace Avoids

variable {error : ε}

theorem ok (value : α) : Avoids error (.ok value : Except ε α) := nofun

theorem bind {program : Except ε α} {next : α → Except ε β} (first : Avoids error program)
    (later : ∀ value, program = .ok value → Avoids error (next value)) :
    Avoids error (program >>= next) := by
  cases program with
  | ok value => exact later value rfl
  | error other =>
    intro raised
    exact first (congrArg Except.error (Except.error.inj raised))

theorem map {program : Except ε α} (first : Avoids error program) (change : α → β) :
    Avoids error (program.map change) := by
  cases program with
  | ok value => exact nofun
  | error other =>
    intro raised
    exact first (congrArg Except.error (Except.error.inj raised))

theorem mapM {read : α → Except ε β} {items : List α}
    (each : ∀ item ∈ items, Avoids error (read item)) : Avoids error (items.mapM read) := by
  induction items with
  | nil => exact nofun
  | cons first rest inductionHypothesis =>
    rw [List.mapM_cons]
    refine bind (each first List.mem_cons_self) fun _ _ => bind ?_ fun _ _ => nofun
    exact inductionHypothesis fun item member => each item (.tail _ member)

end Avoids

/-- A traversal succeeds where its steps do. -/
theorem mapM_eq_ok {read : α → Except ε β} {items : List α} {results : List β} :
    items.mapM read = .ok results ↔ List.Forall₂ (fun item result => read item = .ok result)
      items results := by
  induction items generalizing results with
  | nil =>
    rw [List.mapM_nil, List.forall₂_nil_left_iff]
    exact ⟨fun done => (Except.ok.inj done).symm, fun done => done ▸ rfl⟩
  | cons first rest inductionHypothesis =>
    rw [List.mapM_cons, List.forall₂_cons_left_iff, bind_eq_ok]
    constructor
    · rintro ⟨value, read, done⟩
      obtain ⟨others, later, done⟩ := bind_eq_ok.mp done
      exact ⟨value, others, read, inductionHypothesis.mp later, (Except.ok.inj done).symm⟩
    · rintro ⟨value, others, read, later, rfl⟩
      exact ⟨value, read, bind_eq_ok.mpr ⟨others, inductionHypothesis.mpr later, rfl⟩⟩

/-- A traversal for its errors alone succeeds where its steps do. -/
theorem forM_eq_ok {check : α → Except ε PUnit.{u + 1}} {items : List α} :
    items.forM check = .ok ⟨⟩ ↔ ∀ item ∈ items, check item = .ok ⟨⟩ := by
  induction items with
  | nil => exact ⟨fun _ _ member => (List.not_mem_nil member).elim, fun _ => rfl⟩
  | cons first rest inductionHypothesis =>
    change (check first >>= fun _ => rest.forM check) = _ ↔ _
    rw [bind_eq_ok, List.forall_mem_cons, ← inductionHypothesis]
    constructor
    · rintro ⟨_, here, later⟩
      exact ⟨here, later⟩
    · rintro ⟨here, later⟩
      exact ⟨⟨⟩, here, later⟩

theorem Avoids.forM {check : α → Except ε PUnit.{u + 1}} {error : ε} {items : List α}
    (each : ∀ item ∈ items, Avoids error (check item)) : Avoids error (items.forM check) := by
  induction items with
  | nil => exact nofun
  | cons first rest inductionHypothesis =>
    change Avoids error (check first >>= fun _ => rest.forM check)
    refine Avoids.bind (each first List.mem_cons_self) fun _ _ => ?_
    exact inductionHypothesis fun item member => each item (.tail _ member)

/-- Readers that agree on the items traverse them alike. -/
theorem mapM_congr {read other : α → Except ε β} {items : List α}
    (same : ∀ item ∈ items, read item = other item) : items.mapM read = items.mapM other := by
  induction items with
  | nil => rfl
  | cons first rest inductionHypothesis =>
    rw [List.mapM_cons, List.mapM_cons, same first List.mem_cons_self,
      inductionHypothesis fun item member => same item (.tail _ member)]

end KvCache.Raising
