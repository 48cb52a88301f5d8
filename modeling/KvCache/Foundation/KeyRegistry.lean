import Mathlib.Logic.ExistsUnique
import Mathlib.Logic.Function.Basic

/-!
# A registry of keys

Holders occupy keys, and a table says which keys are taken. The table is right when every
holder's key is taken and every taken key has one holder. Inserting a key that is not
taken, and erasing the key of a holder, keep it right.
-/

namespace KvCache

variable {ι κ : Type*} {key : ι → κ} {holds others : ι → Prop} {active : κ → Bool}

/-- The key of each holder is taken, and each taken key has one holder. -/
structure Exclusive (key : ι → κ) (holds : ι → Prop) (active : κ → Bool) : Prop where
  held : ∀ id, holds id → active (key id) = true
  owned : ∀ place, active place = true → ∃! id, holds id ∧ key id = place

namespace Exclusive

/-- A registry speaks of its holders only. -/
theorem congr (registry : Exclusive key holds active) (same : ∀ id, others id ↔ holds id) :
    Exclusive key others active := by
  obtain rfl : others = holds := funext fun id => propext (same id)
  exact registry

/-- Two holders of one key are one holder. -/
theorem unique (registry : Exclusive key holds active) {first second : ι} (one : holds first)
    (two : holds second) (same : key first = key second) : first = second := by
  obtain ⟨owner, -, unique⟩ := registry.owned (key second) (registry.held second two)
  exact (unique first ⟨one, same⟩).trans (unique second ⟨two, rfl⟩).symm

section Updates

variable [DecidableEq κ] {id : ι}

/-- Insert a key that is not taken. -/
theorem insert (registry : Exclusive key holds active) (vacant : active (key id) ≠ true)
    (mine : others id) (rest : ∀ other, other ≠ id → (others other ↔ holds other)) :
    Exclusive key others (Function.update active (key id) true) := by
  have free : ∀ other, holds other → key other ≠ key id := fun other holding same =>
    vacant (same ▸ registry.held other holding)
  constructor
  · intro other holding
    by_cases here : other = id
    · rw [here]
      exact Function.update_self ..
    · have holding := (rest other here).mp holding
      rw [Function.update_of_ne (free other holding)]
      exact registry.held other holding
  · intro place taken
    by_cases here : place = key id
    · refine ⟨id, ⟨mine, here.symm⟩, ?_⟩
      rintro other ⟨holding, same⟩
      by_contra elsewhere
      exact free other ((rest other elsewhere).mp holding) (same.trans here)
    · rw [Function.update_of_ne here] at taken
      obtain ⟨owner, ⟨holding, same⟩, unique⟩ := registry.owned place taken
      have apart : owner ≠ id := by
        rintro rfl
        exact here same.symm
      refine ⟨owner, ⟨(rest owner apart).mpr holding, same⟩, ?_⟩
      rintro other ⟨holding', same'⟩
      have elsewhere : other ≠ id := by
        rintro rfl
        exact here same'.symm
      exact unique other ⟨(rest other elsewhere).mp holding', same'⟩

/-- Erase the key of a holder. -/
theorem erase (registry : Exclusive key holds active) (holding : holds id) (left : ¬ others id)
    (rest : ∀ other, other ≠ id → (others other ↔ holds other)) :
    Exclusive key others (Function.update active (key id) false) := by
  have elsewhere : ∀ other, others other → other ≠ id := by
    rintro other staying rfl
    exact left staying
  constructor
  · intro other staying
    have apart := elsewhere other staying
    have stayed := (rest other apart).mp staying
    rw [Function.update_of_ne fun same => apart (registry.unique stayed holding same)]
    exact registry.held other stayed
  · intro place taken
    have here : place ≠ key id := by
      rintro rfl
      simp at taken
    rw [Function.update_of_ne here] at taken
    obtain ⟨owner, ⟨held, same⟩, unique⟩ := registry.owned place taken
    have apart : owner ≠ id := by
      rintro rfl
      exact here same.symm
    refine ⟨owner, ⟨(rest owner apart).mpr held, same⟩, ?_⟩
    rintro other ⟨staying, same'⟩
    exact unique other ⟨(rest other (elsewhere other staying)).mp staying, same'⟩

end Updates

end Exclusive

end KvCache
