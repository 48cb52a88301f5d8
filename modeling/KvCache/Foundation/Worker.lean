import Mathlib.Logic.Basic

/-!
# Programs that stop or fail

A program changes a state and ends in one of three ways: it returns a value, it is
stopped from outside while it waits, or a check of its own fails. The state it leaves
is kept in every case. Programs over a part of the state run on the whole.
-/

namespace KvCache

universe u

/-- How a program ends. -/
inductive Outcome (σ α : Type) where
  | finished (value : α) (state : σ)
  | stopped (state : σ)
  | failed (state : σ)
deriving DecidableEq, Repr

/-- The end of a program that was stopped and has cleaned up. -/
def Outcome.halt {σ α : Type} : Outcome σ Unit → Outcome σ α
  | .finished _ state => .stopped state
  | .stopped state => .stopped state
  | .failed state => .failed state

/-- A program over a state. -/
def Worker (σ α : Type) := σ → Outcome σ α

namespace Worker

variable {σ τ α β : Type}

instance : Monad (Worker σ) where
  pure value := fun state => .finished value state
  bind first next := fun state =>
    match first state with
    | .finished value after => next value after
    | .stopped after => .stopped after
    | .failed after => .failed after

/-- Run a program from a state. -/
def run (program : Worker σ α) (state : σ) : Outcome σ α := program state

/-- The state. -/
def current : Worker σ σ := fun state => .finished state state

/-- Change the state. -/
def change (update : σ → σ) : Worker σ Unit := fun state => .finished () (update state)

/-- A check that must hold. -/
def fatalUnless (condition : Prop) [Decidable condition] : Worker σ Unit := fun state =>
  if condition then .finished () state else .failed state

/-- The program ends with a failure. -/
def fail : Worker σ α := fun state => .failed state

/-- Wait for what may never come. A wait that does not end is stopped from outside; the
program then cleans up. -/
def awaitOr (arrives : σ → Bool) (cleanup : Worker σ Unit) : Worker σ Unit := fun state =>
  if arrives state then .finished () state else (cleanup state).halt

/-- Wait with nothing to clean up. -/
def await (arrives : σ → Bool) : Worker σ Unit := awaitOr arrives (pure ())

/-- Run a program on a part of the state. -/
def within (get : τ → σ) (set : σ → τ → τ) (program : Worker σ α) : Worker τ α := fun state =>
  match program (get state) with
  | .finished value after => .finished value (set after state)
  | .stopped after => .stopped (set after state)
  | .failed after => .failed (set after state)

@[simp] theorem run_pure (value : α) (state : σ) :
    run (pure value) state = .finished value state := rfl

@[simp] theorem run_pure_bind (value : α) (next : α → Worker σ β) (state : σ) :
    run (pure value >>= next) state = run (next value) state := rfl

/-- A program that returns is followed by the rest. -/
theorem run_bind_finished {first : Worker σ α} {state after : σ} {value : α}
    (returned : run first state = .finished value after) (next : α → Worker σ β) :
    run (first >>= next) state = run (next value) after := by
  simp only [run] at returned
  simp only [run, bind, returned]

/-- A program that is stopped is not followed by anything. -/
theorem run_bind_stopped {first : Worker σ α} {state after : σ}
    (ended : run first state = .stopped after) (next : α → Worker σ β) :
    run (first >>= next) state = .stopped after := by
  simp only [run] at ended
  simp only [run, bind, ended]

/-- A program that fails is not followed by anything. -/
theorem run_bind_failed {first : Worker σ α} {state after : σ}
    (ended : run first state = .failed after) (next : α → Worker σ β) :
    run (first >>= next) state = .failed after := by
  simp only [run] at ended
  simp only [run, bind, ended]

@[simp] theorem run_bind_assoc {γ : Type} (first : Worker σ α) (second : α → Worker σ β)
    (third : β → Worker σ γ) (state : σ) :
    run ((first >>= second) >>= third) state =
      run (first >>= fun value => second value >>= third) state := by
  simp only [run, bind]
  cases first state <;> rfl

@[simp] theorem run_current_bind (next : σ → Worker σ β) (state : σ) :
    run (current >>= next) state = run (next state) state := rfl

@[simp] theorem run_change (update : σ → σ) (state : σ) :
    run (change update) state = .finished () (update state) := rfl

@[simp] theorem run_change_bind (update : σ → σ) (next : Unit → Worker σ β) (state : σ) :
    run (change update >>= next) state = run (next ()) (update state) := rfl

/-- A check that holds has no effect. -/
theorem run_fatalUnless {condition : Prop} [Decidable condition] (holds : condition) (state : σ) :
    run (fatalUnless condition) state = .finished () state := by
  simp [run, fatalUnless, holds]

theorem run_fatalUnless_bind {condition : Prop} [Decidable condition] (holds : condition)
    (next : Unit → Worker σ β) (state : σ) :
    run (fatalUnless condition >>= next) state = run (next ()) state :=
  run_bind_finished (run_fatalUnless holds state) next

/-! ## Programs on a part -/

variable {get : τ → σ} {set : σ → τ → τ}

/-- A program on a part that returns. -/
theorem run_within {program : Worker σ α} {state : τ} {value : α} {after : σ}
    (returned : run program (get state) = .finished value after) :
    run (within get set program) state = .finished value (set after state) := by
  simp only [run] at returned
  simp only [run, within, returned]

theorem run_within_stopped {program : Worker σ α} {state : τ} {after : σ}
    (ended : run program (get state) = .stopped after) :
    run (within get set program) state = .stopped (set after state) := by
  simp only [run] at ended
  simp only [run, within, ended]

theorem run_within_bind {program : Worker σ α} {state : τ} {value : α} {after : σ}
    (returned : run program (get state) = .finished value after) (next : α → Worker τ β) :
    run (within get set program >>= next) state = run (next value) (set after state) :=
  run_bind_finished (run_within returned) next

@[simp] theorem run_within_change (update : σ → σ) (state : τ) :
    run (within get set (change update)) state = .finished () (set (update (get state)) state) := rfl

@[simp] theorem run_within_change_bind (update : σ → σ) (next : Unit → Worker τ β) (state : τ) :
    run (within get set (change update) >>= next) state =
      run (next ()) (set (update (get state)) state) := rfl

/-! ## Waits -/

theorem run_awaitOr (arrives : σ → Bool) (cleanup : Worker σ Unit) (state : σ) :
    run (awaitOr arrives cleanup) state =
      if arrives state then .finished () state else (run cleanup state).halt := rfl

/-- What follows a wait is run if the wait ends. -/
theorem run_awaitOr_bind (arrives : σ → Bool) (cleanup : Worker σ Unit) (next : Unit → Worker σ β)
    (state : σ) :
    run (awaitOr arrives cleanup >>= next) state =
      if arrives state then run (next ()) state else (run cleanup state).halt := by
  simp only [run, bind, awaitOr]
  cases arrives state with
  | true => rfl
  | false => cases cleanup state <;> rfl

end Worker

end KvCache
