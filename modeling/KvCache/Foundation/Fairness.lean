import Mathlib.Logic.Basic
import Mathlib.Data.Nat.Basic

/-!
# What must happen

A behaviour is an infinite sequence of states; from one to the next some action is taken,
or nothing happens. An action belongs to a party. A behaviour is fair to a party when the
party acts again whenever it stays able to.

One rule gives what must happen under fairness. Until the goal is reached the state has a
rank and a party that helps, and this party is able to act. A step reaches the goal, or
gives a lower rank with some helper, or leaves the rank and the helper and is not taken by
the helper.
-/

namespace KvCache.Fairness

universe u v w
variable {σ : Type u} {α : Type v} {ι : Type w}

/-- An infinite sequence of states with the actions between them. -/
structure Behaviour (Step : σ → α → σ → Prop) where
  states : Nat → σ
  taken : Nat → Option α
  follows : ∀ time,
    match taken time with
    | none => states (time + 1) = states time
    | some action => Step (states time) action (states (time + 1))

variable {Step : σ → α → σ → Prop}

namespace Behaviour

/-- A party that stays able to act acts. -/
def FairTo (behaviour : Behaviour Step) (Able : ι → σ → Prop) (actor : α → Option ι)
    (party : ι) : Prop :=
  ∀ time, (∀ later, time ≤ later → Able party (behaviour.states later)) →
    ∃ later action, time ≤ later ∧ behaviour.taken later = some action ∧
      actor action = some party

/-- From one state on an invariant holds. -/
theorem invariant (behaviour : Behaviour Step) {Inv : σ → Prop} (time : Nat)
    (initial : Inv (behaviour.states time))
    (preserved : ∀ state action after, Inv state → Step state action after → Inv after)
    (later : Nat) (since : time ≤ later) : Inv (behaviour.states later) := by
  induction later, since using Nat.le_induction with
  | base => exact initial
  | succ later _ inductionHypothesis =>
    have follows := behaviour.follows later
    split at follows
    · exact follows ▸ inductionHypothesis
    · exact preserved _ _ _ inductionHypothesis follows

/-- What a ranking argument provides for a goal. -/
structure Ranking (Step : σ → α → σ → Prop) (Able : ι → σ → Prop) (actor : α → Option ι)
    (Inv Goal : σ → Prop) where
  Helped : σ → Nat → ι → Prop
  able : ∀ state rank helper, Inv state → Helped state rank helper → Able helper state
  descends : ∀ state action after rank helper, Inv state → Step state action after →
    Helped state rank helper →
      Goal after ∨ (∃ lower other, lower < rank ∧ Helped after lower other) ∨
        (Helped after rank helper ∧ actor action ≠ some helper)

variable {Able : ι → σ → Prop} {actor : α → Option ι} {Inv Goal : σ → Prop}

/-- While the goal is not reached and the rank gets no lower, a helper goes on helping. -/
theorem Ranking.helps_on (ranking : Ranking Step Able actor Inv Goal)
    (behaviour : Behaviour Step) {time rank : Nat} {helper : ι}
    (holds : ∀ later, time ≤ later → Inv (behaviour.states later))
    (stuck : ∀ later, time ≤ later → ¬ Goal (behaviour.states later) ∧
      ∀ lower other, lower < rank → ¬ ranking.Helped (behaviour.states later) lower other)
    (helps : ranking.Helped (behaviour.states time) rank helper) (later : Nat)
    (since : time ≤ later) : ranking.Helped (behaviour.states later) rank helper := by
  induction later, since using Nat.le_induction with
  | base => exact helps
  | succ later since inductionHypothesis =>
    have follows := behaviour.follows later
    split at follows
    · exact follows ▸ inductionHypothesis
    · obtain ⟨away, lowest⟩ := stuck (later + 1) (by omega)
      obtain reached | ⟨lower, other, less, helped⟩ | ⟨still, _⟩ :=
        ranking.descends _ _ _ rank helper (holds later since) follows inductionHypothesis
      · exact absurd reached away
      · exact absurd helped (lowest lower other less)
      · exact still

/-- The goal is reached, or the rank gets lower. -/
theorem Ranking.progresses (ranking : Ranking Step Able actor Inv Goal)
    (behaviour : Behaviour Step) (fair : ∀ party, behaviour.FairTo Able actor party)
    {time rank : Nat} {helper : ι} (holds : ∀ later, time ≤ later → Inv (behaviour.states later))
    (helps : ranking.Helped (behaviour.states time) rank helper) :
    ∃ later, time ≤ later ∧ (Goal (behaviour.states later) ∨
      ∃ lower other, lower < rank ∧ ranking.Helped (behaviour.states later) lower other) := by
  by_contra none
  have stuck : ∀ later, time ≤ later → ¬ Goal (behaviour.states later) ∧
      ∀ lower other, lower < rank → ¬ ranking.Helped (behaviour.states later) lower other := by
    intro later since
    constructor
    · exact fun reached => none ⟨later, since, .inl reached⟩
    · exact fun lower other less helped => none ⟨later, since, .inr ⟨lower, other, less, helped⟩⟩
  have going := ranking.helps_on behaviour holds stuck helps
  obtain ⟨later, action, since, took, acted⟩ := fair helper time fun later since =>
    ranking.able _ rank helper (holds later since) (going later since)
  have follows := behaviour.follows later
  rw [took] at follows
  obtain ⟨away, lowest⟩ := stuck (later + 1) (by omega)
  obtain reached | ⟨lower, other, less, helped⟩ | ⟨_, silent⟩ :=
    ranking.descends _ _ _ rank helper (holds later since) follows (going later since)
  · exact away reached
  · exact lowest lower other less helped
  · exact silent acted

/-- A ranking argument: the goal is reached. -/
theorem Ranking.eventually (ranking : Ranking Step Able actor Inv Goal)
    (behaviour : Behaviour Step) (fair : ∀ party, behaviour.FairTo Able actor party)
    {time rank : Nat} {helper : ι} (holds : ∀ later, time ≤ later → Inv (behaviour.states later))
    (helps : ranking.Helped (behaviour.states time) rank helper) :
    ∃ later, time ≤ later ∧ Goal (behaviour.states later) := by
  induction rank using Nat.strong_induction_on generalizing time helper with
  | _ rank inductionHypothesis =>
    obtain ⟨later, since, reached | ⟨lower, other, less, helped⟩⟩ :=
      ranking.progresses behaviour fair holds helps
    · exact ⟨later, since, reached⟩
    · obtain ⟨last, after, reached⟩ := inductionHypothesis lower less
        (fun last after => holds last (Nat.le_trans since after)) helped
      exact ⟨last, Nat.le_trans since after, reached⟩

end Behaviour

end KvCache.Fairness
