import KvCache.ClientOps.ParallelGet

/-!
# What the steps of a GET do

One specification for each step that a parallel GET is made of: the checks on a client,
the program of a client in the resident workload, test faults and steps of the runtime.
-/

namespace KvCache.ClientOps

open Function
open Fallible
open ClientLifecycle (ClientOperationsState LifecycleState)

/-- The checks on a client change nothing; who passes is established, and the output has
the geometry that is returned. -/
theorem admitGet_meets (sharedMesh i address : Nat) (key : List UInt8) (tensor : Tensor)
    (world : World) :
    Meets (· = world) (admitGet sharedMesh i address key tensor)
      (fun geometry after => after = world ∧ (world.clients address).state = .established ∧
        outputGeometry tensor (world.clients address).session.maxGetChunks "get_parallel" =
          .ok geometry)
      (· = world) := by
  let Holds : World → Prop := fun after =>
    after = world ∧ (world.clients address).state = .established
  have keeps : ∀ {α : Type} (outcome : Except Failure α),
      Meets Holds (ofExcept outcome) (fun _ => Holds) (· = world) := fun outcome =>
    Meets.ofExcept (fun _ _ _ holds => holds) fun _ holds => holds.1
  have operational : Meets (· = world) (checkOperational address) (fun _ => Holds)
      (· = world) := by
    apply Meets.bind (fun seen after => seen = world ∧ after = world)
      (Meets.look fun _ same => ⟨same, same⟩)
    intro seen
    apply Meets.check
    · rintro state ⟨rfl, rfl⟩ passed
      exact ⟨rfl, passed⟩
    · rintro state ⟨-, same⟩ -
      exact same
  apply Meets.bind (fun _ after => after = world)
    (Meets.check (fun _ same _ => same) fun _ same _ => same)
  intro _
  apply Meets.bind _ operational
  intro _
  apply Meets.bind (fun seen after => seen = world ∧ Holds after)
    (Meets.look fun _ holds => ⟨holds.1, holds⟩)
  intro seen
  by_cases same : seen = world
  case neg =>
    intro state impossible
    exact absurd impossible.1 same
  subst same
  dsimp only
  apply Meets.bind (fun _ => Holds)
    (Meets.check (fun _ holds _ => holds.2) fun _ holds _ => holds.2.1)
  intro _
  apply Meets.bind _ (keeps _)
  intro _
  apply Meets.bind _ (keeps _)
  intro _
  apply Meets.ofExcept
  · intro geometry computed state holds
    exact ⟨holds.1, holds.2, computed⟩
  · exact fun _ holds => holds.1

/-- Filling the workload changes the resident program of the owner and nothing else. -/
theorem fillProgram_meets (platform : Platform) (owner : Nat) (build : Bool) (i address : Nat)
    (key : List UInt8) (tensor : Tensor) (geometry : Nat × Nat × Nat) (world : World) :
    Meets (· = world) (fillProgram platform owner build i address key tensor geometry)
      (fun _ after => sameDramLayout platform (world.clients address).session ∧
        ∃ workload, fillWorkload platform build (world.clients address).session
            (getFields (world.requests address) key tensor geometry)
            ((world.clients owner).parallelGetProg.workload.getD []) = .ok workload ∧
          after = setParallelGetProg owner
            { (world.clients owner).parallelGetProg with workload := some workload } world)
      (· = world) := by
  apply Meets.bind (fun seen after => seen = world ∧ after = world)
    (Meets.look fun _ same => ⟨same, same⟩)
  intro seen
  by_cases same : seen = world
  case neg =>
    intro state impossible
    exact absurd impossible.1 same
  subst same
  dsimp only
  apply Meets.bind (fun _ after => after = seen ∧
      sameDramLayout platform (seen.clients address).session)
    (Meets.check (fun _ holds layout => ⟨holds.2, layout⟩) fun _ holds _ => holds.2)
  intro _
  apply Meets.bind (fun workload after => fillWorkload platform build
      (seen.clients address).session (getFields (seen.requests address) key tensor geometry)
      ((seen.clients owner).parallelGetProg.workload.getD []) = .ok workload ∧ after = seen ∧
        sameDramLayout platform (seen.clients address).session)
    (Meets.ofExcept (fun _ filled _ holds => ⟨filled, holds⟩) fun _ holds => holds.1)
  intro workload
  apply Meets.modify
  rintro state ⟨filled, rfl, layout⟩
  exact ⟨layout, workload, filled, rfl⟩

/-- An assertion that does not speak of test faults survives their consumption. -/
theorem consumeTestFault_meets {Holds Failed : World → Prop} (address : Nat)
    (fault : ClientOperationsTestFault)
    (consumed : ∀ world, Holds world →
      Holds (world.setClient address { world.clients address with testFault := .none })) :
    Meets Holds (consumeTestFault address fault) (fun _ => Holds) Failed := by
  intro world holds
  by_cases ordered : (world.clients address).testFault = fault
  · have value : consumeTestFault address fault world = (.ok true,
        world.setClient address { world.clients address with testFault := .none }) := by
      change (if (world.clients address).testFault = fault then _ else _ : Call Bool) world = _
      rw [if_pos ordered]
      rfl
    rw [value]
    exact consumed world holds
  · have value : consumeTestFault address fault world = (.ok false, world) := by
      change (if (world.clients address).testFault = fault then _ else _ : Call Bool) world = _
      rw [if_neg ordered]
      rfl
    rw [value]
    exact holds

/-- Throwing at an ordered fault keeps such an assertion as well. -/
theorem throwAtFault_meets {Holds : World → Prop} (address : Nat)
    (fault : ClientOperationsTestFault) (message : String)
    (consumed : ∀ world, Holds world →
      Holds (world.setClient address { world.clients address with testFault := .none })) :
    Meets Holds (do if ← consumeTestFault address fault then fail (.thrown message))
      (fun _ => Holds) Holds := by
  apply Meets.bind _ (consumeTestFault_meets address fault consumed)
  intro threw
  cases threw with
  | false => exact Meets.pure fun _ holds => holds
  | true => exact Meets.fail fun _ holds => holds

theorem attempt_meets {Holds : World → Prop} (outcome : Option Failure) :
    Meets Holds (attempt outcome) (fun _ => Holds) Holds := by
  cases outcome with
  | none => exact Meets.pure fun _ holds => holds
  | some failure => exact Meets.fail fun _ holds => holds

/-- The status does not report a too small output. -/
def Fits (buffer : List UInt8) : Prop :=
  statusWord buffer &&& getStatusOutputTooSmall = 0

instance (buffer : List UInt8) : Decidable (Fits buffer) := inferInstanceAs (Decidable (_ = _))

/-- Examining statuses keeps what completing a request keeps. -/
theorem examineStatuses_keeps {α : Type} (observe : World → α)
    (kept : ∀ address world, observe (complete address world) = observe world)
    (outputCapacity : Nat) (responses : List (Nat × List UInt8)) (world : World) :
    observe (examineStatuses outputCapacity responses world).2 = observe world := by
  induction responses generalizing world with
  | nil => rfl
  | cons response rest inductionHypothesis =>
    obtain ⟨address, buffer⟩ := response
    by_cases isWhole : 4 ≤ buffer.length
    · rw [examineStatuses, check_bind_of isWhole, modify_bind]
      by_cases fits : Fits buffer
      · rw [check_bind_of (show statusWord buffer &&& getStatusOutputTooSmall = 0 from fits)]
        have behind : observe (examineStatuses outputCapacity rest (complete address world)).2 =
            observe world := (inductionHypothesis _).trans (kept address world)
        rw [← behind]
        cases outcome : examineStatuses outputCapacity rest (complete address world) with
        | mk found after =>
          cases found with
          | error failure => rw [bind_error outcome]
          | ok hits =>
            rw [bind_ok outcome]
            rfl
      · rw [check_bind_not (show ¬ statusWord buffer &&& getStatusOutputTooSmall = 0 from fits)]
        exact kept address world
    · rw [examineStatuses, check_bind_not isWhole]
      rfl

end KvCache.ClientOps
