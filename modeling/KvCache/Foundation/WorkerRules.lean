import KvCache.Foundation.Worker

/-!
# Rules for programs that stop or fail

A program meets a pair of conditions from a state if it ends in one of two ways: it
returns and the first condition holds of the value and the state, or it is stopped or
fails and the second holds of the state it leaves. There is one rule for each way to
build a program; applied from the front they turn a program into the paths through it.
-/

namespace KvCache.Worker

variable {σ τ α β : Type}

/-- However the program ends, the condition for that end holds. -/
def Meets (program : Worker σ α) (state : σ) (returns : α → σ → Prop) (breaks : σ → Prop) : Prop :=
  match run program state with
  | .finished value after => returns value after
  | .stopped after => breaks after
  | .failed after => breaks after

variable {state : σ} {returns : α → σ → Prop} {breaks : σ → Prop}

/-- The condition of a program that returned. -/
theorem Meets.returned {program : Worker σ α} (meets : Meets program state returns breaks)
    {value : α} {after : σ} (ended : run program state = .finished value after) :
    returns value after := by
  rw [Meets, ended] at meets
  exact meets

/-- The condition of a program that was stopped. -/
theorem Meets.halted {program : Worker σ α} (meets : Meets program state returns breaks)
    {after : σ} (ended : run program state = .stopped after) : breaks after := by
  rw [Meets, ended] at meets
  exact meets

/-- The condition of a program that failed. -/
theorem Meets.broke {program : Worker σ α} (meets : Meets program state returns breaks)
    {after : σ} (ended : run program state = .failed after) : breaks after := by
  rw [Meets, ended] at meets
  exact meets

/-- Weaker conditions are met as well. -/
theorem Meets.imp {program : Worker σ α} (meets : Meets program state returns breaks)
    {others : α → σ → Prop} {breaksToo : σ → Prop}
    (weaker : ∀ value after, returns value after → others value after)
    (also : ∀ after, breaks after → breaksToo after) :
    Meets program state others breaksToo := by
  unfold Meets at *
  cases ended : run program state with
  | finished value after =>
    rw [ended] at meets
    exact weaker value after meets
  | stopped after =>
    rw [ended] at meets
    exact also after meets
  | failed after =>
    rw [ended] at meets
    exact also after meets

/-- A program whose end is known is judged by that end. -/
theorem meets_finished {program : Worker σ α} {value : α} {after : σ}
    (ended : run program state = .finished value after) :
    Meets program state returns breaks ↔ returns value after := by
  rw [Meets, ended]

/-- A program that goes on as another is judged as the other. -/
theorem meets_as {program other : Worker σ α} {later : σ}
    (same : run program state = run other later) :
    Meets program state returns breaks ↔ Meets other later returns breaks := by
  rw [Meets, same, Meets]

/-- A check that does not hold ends the program where it is. -/
theorem run_fatalUnless_broken {condition : Prop} [Decidable condition] (broken : ¬ condition)
    (next : Unit → Worker σ β) :
    run (fatalUnless condition >>= next) state = .failed state := by
  have fails : run (fatalUnless condition) state = .failed state := if_neg broken
  exact run_bind_failed fails next

/-! ## One rule for each program -/

@[simp] theorem meets_pure (value : α) :
    Meets (pure value) state returns breaks ↔ returns value state := Iff.rfl

@[simp] theorem meets_fail : Meets (fail : Worker σ α) state returns breaks ↔ breaks state := Iff.rfl

@[simp] theorem meets_current {returns : σ → σ → Prop} :
    Meets current state returns breaks ↔ returns state state := Iff.rfl

@[simp] theorem meets_change (update : σ → σ) {returns : Unit → σ → Prop} :
    Meets (change update) state returns breaks ↔ returns () (update state) := Iff.rfl

@[simp] theorem meets_fatalUnless {condition : Prop} [Decidable condition]
    {returns : Unit → σ → Prop} :
    Meets (fatalUnless condition) state returns breaks ↔
      (condition → returns () state) ∧ (¬ condition → breaks state) := by
  by_cases holds : condition <;> simp [Meets, run, fatalUnless, holds]

/-- What follows is judged from where the first part returns. -/
@[simp] theorem meets_bind (first : Worker σ α) (next : α → Worker σ β)
    {returns : β → σ → Prop} :
    Meets (first >>= next) state returns breaks ↔
      Meets first state (fun value after => Meets (next value) after returns breaks) breaks := by
  simp only [Meets, run, bind]
  cases first state <;> rfl

/-- A wait ends, or the cleanup is run. -/
@[simp] theorem meets_awaitOr (arrives : σ → Bool) (cleanup : Worker σ Unit)
    {returns : Unit → σ → Prop} :
    Meets (awaitOr arrives cleanup) state returns breaks ↔
      (arrives state = true → returns () state) ∧
        (arrives state = false → Meets cleanup state (fun _ after => breaks after) breaks) := by
  cases answered : arrives state with
  | true => simp [Meets, run, awaitOr, answered]
  | false =>
    simp only [Meets, run, awaitOr, answered, Outcome.halt]
    cases cleanup state <;> simp

@[simp] theorem meets_await (arrives : σ → Bool) {returns : Unit → σ → Prop} :
    Meets (await arrives) state returns breaks ↔
      (arrives state = true → returns () state) ∧ (arrives state = false → breaks state) :=
  meets_awaitOr arrives (pure ())

/-- A program on a part is judged by the whole it leaves. -/
@[simp] theorem meets_within {get : τ → σ} {set : σ → τ → τ} (program : Worker σ α) {whole : τ}
    {returns : α → τ → Prop} {breaks : τ → Prop} :
    Meets (within get set program) whole returns breaks ↔
      Meets program (get whole) (fun value after => returns value (set after whole))
        fun after => breaks (set after whole) := by
  simp only [Meets, run, within]
  cases program (get whole) <;> rfl

/-- Each branch is judged where it is taken. -/
@[simp] theorem meets_ite {condition : Prop} [Decidable condition] (first second : Worker σ α) :
    Meets (if condition then first else second) state returns breaks ↔
      (condition → Meets first state returns breaks) ∧
        (¬ condition → Meets second state returns breaks) := by
  by_cases holds : condition <;> simp [holds]

/-! ## What a program keeps -/

/-- From every state with a property, the program leaves a state with it. -/
def Keeps (property : σ → Prop) (program : Worker σ α) : Prop :=
  ∀ state, property state → Meets program state (fun _ after => property after) property

variable {property : σ → Prop}

theorem Keeps.pure (value : α) : Keeps property (Pure.pure value : Worker σ α) :=
  fun _ holds => holds

/-- The parts of a program keep what the whole keeps. -/
theorem Keeps.bind {first : Worker σ α} {next : α → Worker σ β} (keeps : Keeps property first)
    (also : ∀ value, Keeps property (next value)) : Keeps property (first >>= next) := by
  intro state holds
  rw [meets_bind]
  exact (keeps state holds).imp (fun value after => also value after) fun _ => id

/-- What follows a part that keeps a property starts from a state with it. -/
theorem Keeps.first {first : Worker σ α} {next : α → Worker σ β} {returns : β → σ → Prop}
    (keeps : Keeps property first) (breaking : ∀ state, property state → breaks state)
    (rest : ∀ value state, property state → Meets (next value) state returns breaks)
    (holds : property state) : Meets (first >>= next) state returns breaks := by
  rw [meets_bind]
  exact (keeps state holds).imp rest breaking

theorem Keeps.current {next : σ → Worker σ β}
    (keeps : ∀ state, property state → Meets (next state) state (fun _ after => property after)
      property) : Keeps property (Worker.current >>= next) := by
  intro state holds
  rw [meets_bind, meets_current]
  exact keeps state holds

theorem Keeps.fatalUnless {condition : Prop} [Decidable condition] {next : Unit → Worker σ β}
    (keeps : condition → Keeps property (next ())) :
    Keeps property (Worker.fatalUnless condition >>= next) := by
  intro state holds
  rw [meets_bind, meets_fatalUnless]
  exact ⟨fun fine => keeps fine state holds, fun _ => holds⟩

end KvCache.Worker
