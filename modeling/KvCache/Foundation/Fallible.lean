import Mathlib.Logic.Basic

/-!
# Programs that fail and clean up

A program over a state returns a value or fails, and leaves a state either way. A
scope runs a cleanup when its body is left, whichever way it is left, as a destructor
does.

A program meets a specification when from every admitted state it returns with the
promised value and state or fails in an admitted one. One rule for each construction
derives the specification of a program from those of its parts.
-/

namespace KvCache

universe u
variable {σ ε α β : Type u}

/-- A program that returns or fails, and leaves a state either way. -/
def Fallible (σ ε α : Type u) := σ → Except ε α × σ

namespace Fallible

instance : Monad (Fallible σ ε) where
  pure value := fun state => (.ok value, state)
  bind program next := fun state =>
    match program state with
    | (.ok value, after) => next value after
    | (.error failure, after) => (.error failure, after)

/-- Leave with a failure. -/
def fail (failure : ε) : Fallible σ ε α := fun state => (.error failure, state)

/-- Read the state. -/
def look : Fallible σ ε σ := fun state => (.ok state, state)

def modify (change : σ → σ) : Fallible σ ε PUnit := fun state => (.ok ⟨⟩, change state)

/-- Fail unless the condition holds. -/
def check (condition : Prop) [Decidable condition] (failure : ε) : Fallible σ ε PUnit :=
  if condition then pure ⟨⟩ else fail failure

/-- Run a program on a condition. -/
def onlyIf (condition : Prop) [Decidable condition] (program : Fallible σ ε PUnit) :
    Fallible σ ε PUnit :=
  if condition then program else pure ⟨⟩

/-- A value that was computed before, or its failure. -/
def ofExcept (outcome : Except ε α) : Fallible σ ε α := fun state => (outcome, state)

/-- Run the cleanup when the body is left. -/
def enclosed (body : Fallible σ ε α) (cleanup : σ → σ) : Fallible σ ε α := fun state =>
  ((body state).1, cleanup (body state).2)

/-- Run a program for each element in turn. -/
def forEach {ι : Type u} (program : ι → Fallible σ ε PUnit) : List ι → Fallible σ ε PUnit
  | [] => pure ⟨⟩
  | element :: rest => do
    program element
    forEach program rest

/-- What is promised of an outcome. -/
def Promised (Returned : α → σ → Prop) (Failed : σ → Prop) : Except ε α × σ → Prop
  | (.ok value, after) => Returned value after
  | (.error _, after) => Failed after

/-- From every admitted state the program returns or fails as promised. -/
def Meets (Admitted : σ → Prop) (program : Fallible σ ε α) (Returned : α → σ → Prop)
    (Failed : σ → Prop) : Prop :=
  ∀ state, Admitted state → Promised Returned Failed (program state)

theorem bind_ok {program : Fallible σ ε α} {next : α → Fallible σ ε β} {state after : σ}
    {value : α} (returned : program state = (.ok value, after)) :
    (program >>= next) state = next value after := by
  change (match program state with
    | (.ok value, after) => next value after
    | (.error failure, after) => (.error failure, after)) = _
  rw [returned]

theorem bind_error {program : Fallible σ ε α} {next : α → Fallible σ ε β} {state after : σ}
    {failure : ε} (failed : program state = (.error failure, after)) :
    (program >>= next) state = (.error failure, after) := by
  change (match program state with
    | (.ok value, after) => next value after
    | (.error failure, after) => (.error failure, after)) = _
  rw [failed]

theorem modify_bind {change : σ → σ} {next : PUnit → Fallible σ ε β} {state : σ} :
    (modify change >>= next) state = next ⟨⟩ (change state) := rfl

theorem check_bind_of {condition : Prop} [Decidable condition] {failure : ε}
    {next : PUnit → Fallible σ ε β} (holds : condition) :
    (check condition failure >>= next) = next ⟨⟩ := by
  rw [check, if_pos holds]
  rfl

theorem check_bind_not {condition : Prop} [Decidable condition] {failure : ε}
    {next : PUnit → Fallible σ ε β} (fails : ¬ condition) :
    (check condition failure >>= next) = fail failure := by
  rw [check, if_neg fails]
  rfl

variable {Admitted Failed : σ → Prop} {Returned : α → σ → Prop} {Final : β → σ → Prop}

/-- A promise that does not tell the outcomes apart is about the state. -/
theorem Promised.state {Left : σ → Prop} {outcome : Except ε α × σ}
    (promised : Promised (fun _ => Left) Left outcome) : Left outcome.2 := by
  rcases outcome with ⟨failure | value, after⟩
  · exact promised
  · exact promised

theorem Promised.of_state {Left : σ → Prop} {outcome : Except ε α × σ}
    (left : Left outcome.2) : Promised (fun _ => Left) Left outcome := by
  rcases outcome with ⟨failure | value, after⟩
  · exact left
  · exact left

/-- What a specification says of one run. -/
theorem Meets.outcome {program : Fallible σ ε α} {state : σ}
    (meets : Meets Admitted program Returned Failed) (admitted : Admitted state) :
    (∃ failure after, program state = (.error failure, after) ∧ Failed after) ∨
      ∃ value after, program state = (.ok value, after) ∧ Returned value after := by
  have promised := meets state admitted
  generalize program state = outcome at promised
  rcases outcome with ⟨failure | value, after⟩
  · exact .inl ⟨failure, after, rfl, promised⟩
  · exact .inr ⟨value, after, rfl, promised⟩

theorem Meets.pure {value : α} (holds : ∀ state, Admitted state → Returned value state) :
    Meets (ε := ε) Admitted (Pure.pure value) Returned Failed := holds

theorem Meets.fail {failure : ε} (holds : ∀ state, Admitted state → Failed state) :
    Meets Admitted (Fallible.fail failure) Returned Failed := holds

theorem Meets.modify {change : σ → σ} {Changed : PUnit → σ → Prop}
    (holds : ∀ state, Admitted state → Changed ⟨⟩ (change state)) :
    Meets (ε := ε) Admitted (Fallible.modify change) Changed Failed := holds

theorem Meets.look {Seen : σ → σ → Prop} (holds : ∀ state, Admitted state → Seen state state) :
    Meets (ε := ε) Admitted Fallible.look Seen Failed := holds

/-- Sequencing, with the assertion that holds in between. -/
theorem Meets.bind {program : Fallible σ ε α} {next : α → Fallible σ ε β}
    (Returned : α → σ → Prop) (first : Meets Admitted program Returned Failed)
    (second : ∀ value, Meets (Returned value) (next value) Final Failed) :
    Meets Admitted (program >>= next) Final Failed := by
  intro state admitted
  have promised := first state admitted
  change Promised Final Failed
    (match program state with
    | (.ok value, after) => next value after
    | (.error failure, after) => (.error failure, after))
  generalize program state = outcome at promised ⊢
  rcases outcome with ⟨failure | value, after⟩
  · exact promised
  · exact second value after promised

theorem Meets.check {condition : Prop} [Decidable condition] {failure : ε}
    {Passed : PUnit → σ → Prop}
    (passes : ∀ state, Admitted state → condition → Passed ⟨⟩ state)
    (fails : ∀ state, Admitted state → ¬ condition → Failed state) :
    Meets Admitted (Fallible.check condition failure) Passed Failed := by
  intro state admitted
  by_cases holds : condition
  · rw [Fallible.check, if_pos holds]
    exact passes state admitted holds
  · rw [Fallible.check, if_neg holds]
    exact fails state admitted holds

/-- A program that keeps an assertion keeps it also where it is run on a condition. -/
theorem Meets.onlyIf {condition : Prop} [Decidable condition] {program : Fallible σ ε PUnit}
    (meets : Meets Admitted program (fun _ => Admitted) Failed) :
    Meets Admitted (Fallible.onlyIf condition program) (fun _ => Admitted) Failed := by
  rw [Fallible.onlyIf]
  split
  · exact meets
  · exact Meets.pure fun _ holds => holds

theorem Meets.ofExcept {outcome : Except ε α}
    (returns : ∀ value, outcome = .ok value → ∀ state, Admitted state → Returned value state)
    (fails : ∀ state, Admitted state → Failed state) :
    Meets Admitted (Fallible.ofExcept outcome) Returned Failed := by
  intro state admitted
  cases outcome with
  | error failure => exact fails state admitted
  | ok value => exact returns value rfl state admitted

theorem Meets.enclosed {body : Fallible σ ε α} {cleanup : σ → σ} {Inside : α → σ → Prop}
    {Broken : σ → Prop} (within : Meets Admitted body Inside Broken)
    (returns : ∀ value state, Inside value state → Returned value (cleanup state))
    (fails : ∀ state, Broken state → Failed (cleanup state)) :
    Meets Admitted (Fallible.enclosed body cleanup) Returned Failed := by
  intro state admitted
  have promised := within state admitted
  change Promised Returned Failed ((body state).1, cleanup (body state).2)
  generalize body state = outcome at promised ⊢
  rcases outcome with ⟨failure | value, after⟩
  · exact fails after promised
  · exact returns value after promised

/-- A loop keeps an invariant that speaks of the elements behind and ahead. -/
theorem Meets.forEach {ι : Type u} {program : ι → Fallible σ ε PUnit}
    (Invariant : List ι → List ι → σ → Prop) (elements : List ι)
    (each : ∀ behind element ahead, behind ++ element :: ahead = elements →
      Meets (Invariant behind (element :: ahead)) (program element)
        (fun _ => Invariant (behind ++ [element]) ahead) Failed) :
    Meets (Invariant [] elements) (Fallible.forEach program elements)
      (fun _ => Invariant elements []) Failed := by
  suffices general : ∀ ahead behind, behind ++ ahead = elements →
      Meets (Invariant behind ahead) (Fallible.forEach program ahead)
        (fun _ => Invariant elements []) Failed from general elements [] rfl
  intro ahead
  induction ahead with
  | nil =>
    intro behind whole
    rw [← whole, List.append_nil]
    exact Meets.pure fun _ holds => holds
  | cons element ahead inductionHypothesis =>
    intro behind whole
    apply Meets.bind _ (each behind element ahead whole)
    intro _
    apply inductionHypothesis (behind ++ [element])
    rw [List.append_assoc]
    exact whole

theorem Meets.weaken {program : Fallible σ ε α} {Narrower Fewer : σ → Prop}
    {Stronger : α → σ → Prop} (meets : Meets Admitted program Stronger Fewer)
    (admits : ∀ state, Narrower state → Admitted state)
    (returns : ∀ value state, Stronger value state → Returned value state)
    (fails : ∀ state, Fewer state → Failed state) :
    Meets Narrower program Returned Failed := by
  intro state narrow
  have promised := meets state (admits state narrow)
  generalize program state = outcome at promised ⊢
  rcases outcome with ⟨failure | value, after⟩
  · exact fails after promised
  · exact returns value after promised

end Fallible

end KvCache
