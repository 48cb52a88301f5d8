import KvCache.Foundation.Run
import Mathlib.Data.List.Induction

/-!
# What happened before what

The trace of a run is its history. Facts that relate the history to the state are proved
like invariants. The order of events is stated by sublists of the history; what lies
between two events by the ways in which the history splits at them.
-/

namespace KvCache.Run

universe u v
variable {σ : Type u} {ε : Type v} {Step : σ → List ε → σ → Prop} {init state : σ}
  {trace : List ε}

/-- What holds of the empty history and the first state, and is kept by every step, holds
of the history and the last state of every run. -/
theorem Run.history (Inv : List ε → σ → Prop) (run : Run Step init trace state)
    (initial : Inv [] init)
    (preserved : ∀ past state events after, Inv past state → Step state events after →
      Inv (past ++ events) after) :
    Inv trace state := by
  induction run with
  | start => exact initial
  | next _ step inductionHypothesis => exact preserved _ _ _ _ inductionHypothesis step

/-- A sequence of events that ends with another one than the last event happened before. -/
theorem sublist_concat {events past : List ε} {event last : ε}
    (ordered : (events ++ [event]).Sublist (past ++ [last])) :
    (events ++ [event]).Sublist past ∨ (event = last ∧ events.Sublist past) := by
  obtain ⟨front, back, split, early, late⟩ := List.sublist_append_iff.mp ordered
  cases late with
  | cons _ none =>
    have nothing : back = [] := List.sublist_nil.mp none
    rw [nothing, List.append_nil] at split
    exact .inl (split ▸ early)
  | cons_cons _ none =>
    have nothing := List.sublist_nil.mp none
    rw [nothing] at split
    obtain ⟨same, ends⟩ := List.append_inj' split rfl
    exact .inr ⟨List.singleton_inj.mp ends, same ▸ early⟩

/-- The ways in which a history splits at an event when one more event happens. -/
theorem split_concat {past front back : List ε} {event last : ε}
    (split : past ++ [last] = front ++ event :: back) :
    (back = [] ∧ event = last ∧ front = past) ∨
      ∃ rest, back = rest ++ [last] ∧ past = front ++ event :: rest := by
  cases back using List.reverseRecOn with
  | nil =>
    obtain ⟨same, ends⟩ := List.append_inj' split rfl
    exact .inl ⟨rfl, (List.singleton_inj.mp ends).symm, same.symm⟩
  | append_singleton rest final =>
    rw [← List.cons_append, ← List.append_assoc] at split
    obtain ⟨same, ends⟩ := List.append_inj' split rfl
    rw [List.singleton_inj.mp ends]
    exact .inr ⟨rest, rfl, same⟩

/-- Events in order, and a new one after them. -/
theorem sublist_then {events past : List ε} (ordered : events.Sublist past) (last : ε) :
    (events ++ [last]).Sublist (past ++ [last]) :=
  ordered.append_right [last]

/-- What happened stays in the history. -/
theorem sublist_later {events past : List ε} (ordered : events.Sublist past)
    (later : List ε) : events.Sublist (past ++ later) :=
  ordered.trans (List.sublist_append_left past later)

end KvCache.Run
