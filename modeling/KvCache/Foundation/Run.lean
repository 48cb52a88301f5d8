/-!
# Runs, invariants and traces

A system is a relation between states that also lists the events a step emits.
A run is a finite sequence of steps from a fixed initial state; its trace is the
concatenation of the events. Restricting the relation gives the runs all of whose
steps meet a condition.

Two rules carry all results about runs: an inductive invariant holds in every
state reached, and a simulation turns every trace into one that an abstract
acceptor of events accepts.
-/

namespace KvCache.Run

universe u v w
variable {σ : Type u} {ε : Type v} {μ : Type w}

/-- The finite runs from `init`, with their traces. -/
inductive Run (Step : σ → List ε → σ → Prop) (init : σ) : List ε → σ → Prop where
  | start : Run Step init [] init
  | next {trace events : List ε} {state after : σ} (run : Run Step init trace state)
      (step : Step state events after) : Run Step init (trace ++ events) after

/-- A state that some run ends in. -/
def Reachable (Step : σ → List ε → σ → Prop) (init state : σ) : Prop :=
  ∃ trace, Run Step init trace state

/-- The steps whose source state meets a condition. -/
def Restrict (Step : σ → List ε → σ → Prop) (Meets : σ → Prop) : σ → List ε → σ → Prop :=
  fun state events after => Meets state ∧ Step state events after

variable {Step Finer : σ → List ε → σ → Prop} {init state : σ} {trace : List ε}

/-- An inductive invariant holds wherever a run ends. -/
theorem Run.invariant (Inv : σ → Prop) (run : Run Step init trace state) (initial : Inv init)
    (preserved : ∀ state events after, Inv state → Step state events after → Inv after) :
    Inv state := by
  induction run with
  | start => exact initial
  | next _ step inductionHypothesis => exact preserved _ _ _ inductionHypothesis step

/-- A run of fewer steps is a run of more. -/
theorem Run.mono (run : Run Finer init trace state)
    (weaker : ∀ state events after, Finer state events after → Step state events after) :
    Run Step init trace state := by
  induction run with
  | start => exact .start
  | next _ step inductionHypothesis => exact .next inductionHypothesis (weaker _ _ _ step)

/-- Feed a trace to an acceptor of events. -/
def accept (observe : μ → ε → Option μ) : μ → List ε → Option μ
  | abstract, [] => some abstract
  | abstract, event :: rest => (observe abstract event).bind (accept observe · rest)

theorem accept_append (observe : μ → ε → Option μ) (abstract : μ) (front back : List ε) :
    accept observe abstract (front ++ back) =
      (accept observe abstract front).bind (accept observe · back) := by
  induction front generalizing abstract with
  | nil => rfl
  | cons event rest inductionHypothesis =>
    cases observed : observe abstract event with
    | none => simp [accept, observed]
    | some next => simp [accept, observed, inductionHypothesis]

/-- A simulation makes every trace acceptable and relates the final states. -/
theorem Run.simulates (observe : μ → ε → Option μ) (Related : σ → μ → Prop) {first : μ}
    (run : Run Step init trace state) (initial : Related init first)
    (simulated : ∀ state events after abstract, Related state abstract → Step state events after →
      ∃ next, accept observe abstract events = some next ∧ Related after next) :
    ∃ last, accept observe first trace = some last ∧ Related state last := by
  induction run with
  | start => exact ⟨first, rfl, initial⟩
  | next _ step inductionHypothesis =>
    obtain ⟨middle, accepted, related⟩ := inductionHypothesis
    obtain ⟨last, advanced, after⟩ := simulated _ _ _ middle related step
    refine ⟨last, ?_, after⟩
    rw [accept_append, accepted]
    exact advanced

/-- Where every step carries the abstraction of a state to that of the next, the trace
of a run leads to the abstraction of its last state. -/
theorem Run.tracks {observe : μ → ε → Option μ} (abstraction : σ → μ)
    (run : Run Step init trace state)
    (carried : ∀ state events after, Step state events after →
      accept observe (abstraction state) events = some (abstraction after)) :
    accept observe (abstraction init) trace = some (abstraction state) := by
  obtain ⟨last, accepted, rfl⟩ := run.simulates observe (fun state abstract => abstract = abstraction state)
    rfl fun state events after abstract same stepped =>
      ⟨_, same ▸ carried state events after stepped, rfl⟩
  exact accepted

section Executable

variable {α : Type w} (step : σ → α → Option (σ × List ε))

/-- The steps that some action takes. -/
def Takes : σ → List ε → σ → Prop := fun state events after =>
  ∃ action, step state action = some (after, events)

/-- The steps of the actions that meet a condition on the state they start in. -/
def TakesWhere (Meets : σ → α → Prop) : σ → List ε → σ → Prop := fun state events after =>
  ∃ action, Meets state action ∧ step state action = some (after, events)

/-- The step function, refusing the actions that do not meet a condition. -/
def guarded (Meets : σ → α → Prop) [∀ state action, Decidable (Meets state action)] :
    σ → α → Option (σ × List ε) :=
  fun state action => if Meets state action then step state action else none

/-- Execute a list of actions, collecting the events. -/
def execute : σ → List α → Option (σ × List ε)
  | state, [] => some (state, [])
  | state, action :: rest =>
    (step state action).bind fun (after, events) =>
      (execute after rest).map fun (last, later) => (last, events ++ later)

variable {step}

theorem guarded_takes {Meets : σ → α → Prop} [∀ state action, Decidable (Meets state action)]
    {state after : σ} {events : List ε} (taken : Takes (guarded step Meets) state events after) :
    TakesWhere step Meets state events after := by
  obtain ⟨action, stepped⟩ := taken
  rw [guarded] at stepped
  split at stepped
  · next meets => exact ⟨action, meets, stepped⟩
  · cases stepped

/-- A successful execution continues a run. -/
theorem Run.execute {actions : List α} {last : σ} {events : List ε}
    (run : Run (Takes step) init trace state)
    (executed : Run.execute step state actions = some (last, events)) :
    Run (Takes step) init (trace ++ events) last := by
  induction actions generalizing state trace events with
  | nil =>
    simp only [Run.execute, Option.some.injEq, Prod.mk.injEq] at executed
    obtain ⟨rfl, rfl⟩ := executed
    simpa using run
  | cons action rest inductionHypothesis =>
    simp only [Run.execute, Option.bind_eq_some_iff, Option.map_eq_some_iff, Prod.exists,
      Prod.mk.injEq] at executed
    obtain ⟨after, emitted, taken, final, later, ended, rfl, rfl⟩ := executed
    rw [← List.append_assoc]
    exact inductionHypothesis (.next run ⟨action, taken⟩) ended

/-- One more action. -/
theorem execute_snoc {actions : List α} {action : α} {middle last : σ} {events later : List ε}
    (executed : execute step state actions = some (middle, events))
    (stepped : step middle action = some (last, later)) :
    execute step state (actions ++ [action]) = some (last, events ++ later) := by
  induction actions generalizing state events with
  | nil =>
    simp only [execute, Option.some.injEq, Prod.mk.injEq] at executed
    obtain ⟨rfl, rfl⟩ := executed
    simp [execute, stepped]
  | cons first rest inductionHypothesis =>
    simp only [execute, Option.bind_eq_some_iff, Option.map_eq_some_iff, Prod.exists,
      Prod.mk.injEq] at executed
    obtain ⟨after, emitted, taken, final, ended, executed, rfl, rfl⟩ := executed
    simp [execute, taken, inductionHypothesis executed]

end Executable

end KvCache.Run
