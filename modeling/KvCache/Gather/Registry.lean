import KvCache.Foundation.History
import KvCache.Foundation.Fairness
import KvCache.Foundation.Tally
import Mathlib.Logic.Function.Basic

/-!
# The staging buffers of gather and scatter

A registry maps each mesh to a shared object with the buffers, the number of operations
that hold it, a flag that it is being released and a mutex that one operation at a time
owns. A set records the meshes that were released. Registry, set, numbers and flags are
guarded by one lock; a condition variable goes with it.

A call of an operation, a reserve or a release advances by sections: what it does between
taking and leaving the registry lock is one section, and so is taking or leaving the mutex
of an object. The lock is not kept while a call waits for the condition variable. An
allocation, and the mutex of an object, may fail. Shared objects are told apart by the
order in which they were made; the object of a call that waits is not made again.
-/

namespace KvCache.GatherResources

open Run

/-- A shared object, without its buffers. -/
structure Resources where
  activeOperations : Nat
  releasing : Bool
  operationMutex : Bool
deriving DecidableEq, Repr

/-- A new object. -/
def Resources.make : Resources := ⟨0, false, false⟩

/-- What is called on a mesh. -/
inductive Request where
  | operation
  | reserve
  | release
deriving DecidableEq, Repr

/-- Where a call is. An operation is queued at the mutex of its object, holds it, or has left
it. A release drains an object, awaits that another release has dropped it, or is about to
return, with or without a notification. -/
inductive Point (Mesh : Type) where
  | called (request : Request) (mesh : Mesh)
  | queued (mesh : Mesh) (resources : Nat)
  | holding (mesh : Mesh) (resources : Nat)
  | finishing (mesh : Mesh) (resources : Nat)
  | finished
  | draining (mesh : Mesh) (resources : Nat) (asleep : Bool)
  | awaiting (mesh : Mesh) (resources : Nat) (asleep : Bool)
  | notifying (mesh : Mesh)
  | returning (mesh : Mesh)
  | reserved
  | released
  | refused
deriving DecidableEq, Repr

/-- What is seen of a section. -/
inductive Event (Mesh : Type) where
  | counted (call : Nat) (mesh : Mesh)
  | uncounted (call : Nat)
  | reserved (mesh : Mesh)
  | began (call : Nat) (mesh : Mesh)
  | dropped (mesh : Mesh)
  | returned (call : Nat) (mesh : Mesh)
deriving DecidableEq, Repr

/-- The registry, the released meshes, the objects made so far and the calls, in the order
in which they were made. -/
structure Gather (Mesh : Type) where
  registry : Mesh → Option Nat
  released : Mesh → Bool
  objects : Nat → Resources
  made : Nat
  calls : List (Point Mesh)

/-- Nothing has been reserved, released or called. -/
def Gather.initial {Mesh : Type} : Gather Mesh where
  registry := fun _ => none
  released := fun _ => false
  objects := fun _ => .make
  made := 0
  calls := []

section Sections

variable {Mesh : Type} [DecidableEq Mesh]

/-- `registry.emplace` with a new object. -/
def emplace (mesh : Mesh) (gather : Gather Mesh) : Gather Mesh :=
  { gather with
    registry := Function.update gather.registry mesh (some gather.made)
    objects := Function.update gather.objects gather.made .make
    made := gather.made + 1 }

/-- Set an object. -/
def store (resources : Nat) (object : Resources) (gather : Gather Mesh) : Gather Mesh :=
  { gather with objects := Function.update gather.objects resources object }

/-- The object of an operation: the one of the registry, or a new one. -/
def find (mesh : Mesh) (allocates : Bool) (gather : Gather Mesh) : Option (Nat × Gather Mesh) :=
  match gather.registry mesh with
  | some resources => some (resources, gather)
  | none => if allocates then some (gather.made, emplace mesh gather) else none

/-- The constructor of `GatherOperation` under the registry lock. -/
def count (mesh : Mesh) (allocates : Bool) (gather : Gather Mesh) : Option (Nat × Gather Mesh) :=
  if gather.released mesh then none
  else
    (find mesh allocates gather).bind fun (resources, found) =>
      let object := found.objects resources
      if object.releasing then none
      else
        some (resources,
          store resources { object with activeOperations := object.activeOperations + 1 } found)

/-- `reserve_gather_resources`, and whether it succeeds. The mesh leaves the released set
before the allocation, which may throw. -/
def reserve (mesh : Mesh) (allocates : Bool) (gather : Gather Mesh) : Bool × Gather Mesh :=
  match gather.registry mesh with
  | some resources => (!(gather.objects resources).releasing, gather)
  | none =>
    let erased := { gather with released := Function.update gather.released mesh false }
    if allocates then (true, emplace mesh erased) else (false, erased)

/-- The entry of a mesh is erased and the mesh recorded as released. -/
def drop (mesh : Mesh) (gather : Gather Mesh) : Gather Mesh :=
  { gather with
    registry := Function.update gather.registry mesh none
    released := Function.update gather.released mesh true }

/-- What a section of a call does: the state, where the call is then, what is seen. -/
abbrev Effect (Mesh : Type) := Gather Mesh × Point Mesh × List (Event Mesh)

/-- Wait until no operation holds the object; then drop it. -/
def drain (mesh : Mesh) (resources : Nat) (gather : Gather Mesh) : Effect Mesh :=
  if (gather.objects resources).activeOperations = 0 then
    if gather.registry mesh = some resources then
      (drop mesh gather, .notifying mesh, [.dropped mesh])
    else (gather, .notifying mesh, [])
  else (gather, .draining mesh resources true, [])

/-- Wait until the registry has no entry for the mesh, or another object. -/
def await (mesh : Mesh) (resources : Nat) (gather : Gather Mesh) : Effect Mesh :=
  if gather.registry mesh = some resources then (gather, .awaiting mesh resources true, [])
  else (gather, .returning mesh, [])

/-- `release_gather_resources` up to its first wait. -/
def release (mesh : Mesh) (gather : Gather Mesh) : Effect Mesh :=
  match gather.registry mesh with
  | none =>
    ({ gather with released := Function.update gather.released mesh true },
      .returning mesh, [.dropped mesh])
  | some resources =>
    let object := gather.objects resources
    if object.releasing then await mesh resources gather
    else drain mesh resources (store resources { object with releasing := true } gather)

/-- A call that sleeps at the condition variable is woken. -/
def Point.woken : Point Mesh → Point Mesh
  | .draining mesh resources _ => .draining mesh resources false
  | .awaiting mesh resources _ => .awaiting mesh resources false
  | point => point

/-- `notify_all`. -/
def notifyAll (gather : Gather Mesh) : Gather Mesh :=
  { gather with calls := gather.calls.map Point.woken }

/-- `GatherOperation::finish`. -/
def finish (resources : Nat) (gather : Gather Mesh) : Gather Mesh :=
  let object := gather.objects resources
  notifyAll
    (store resources { object with activeOperations := object.activeOperations - 1 } gather)

/-- The next section of a call. It has none when the call sleeps, waits for a mutex or has
ended. What the section needs from outside, memory or a mutex, may be refused. -/
def proceed (index : Nat) (succeeds : Bool) (gather : Gather Mesh) :
    Point Mesh → Option (Effect Mesh)
  | .called .operation mesh =>
    match count mesh succeeds gather with
    | some (resources, counted) =>
      some (counted, .queued mesh resources, [.counted index mesh])
    | none => some (gather, .refused, [])
  | .called .reserve mesh =>
    match reserve mesh succeeds gather with
    | (true, after) => some (after, .reserved, [.reserved mesh])
    | (false, after) => some (after, .refused, [])
  | .called .release mesh => some (release mesh gather)
  | .queued mesh resources =>
    let object := gather.objects resources
    if succeeds then
      if object.operationMutex then none
      else
        some (store resources { object with operationMutex := true } gather,
          .holding mesh resources, [])
    else some (gather, .finishing mesh resources, [])
  | .holding mesh resources =>
    let object := gather.objects resources
    some (store resources { object with operationMutex := false } gather,
      .finishing mesh resources, [])
  | .finishing _ resources => some (finish resources gather, .finished, [.uncounted index])
  | .draining mesh resources false => some (drain mesh resources gather)
  | .awaiting mesh resources false => some (await mesh resources gather)
  | .notifying mesh => some (notifyAll gather, .released, [.returned index mesh])
  | .returning mesh => some (gather, .released, [.returned index mesh])
  | _ => none

/-- What may happen next: a new call, the next section of a call, or a spurious wakeup. -/
inductive Action (Mesh : Type) where
  | call (request : Request) (mesh : Mesh)
  | advance (index : Nat) (succeeds : Bool)
  | wake (index : Nat)
deriving DecidableEq, Repr

/-- The call that an action advances. -/
def Action.caller : Action Mesh → Option Nat
  | .call _ _ => none
  | .advance index _ => some index
  | .wake _ => none

/-- Put a call where it is after a section. -/
def settle (index : Nat) : Effect Mesh → Gather Mesh × List (Event Mesh)
  | (gather, point, events) =>
    ({ gather with calls := gather.calls.set index point }, events)

/-- One step. -/
def step (gather : Gather Mesh) : Action Mesh → Option (Gather Mesh × List (Event Mesh))
  | .call request mesh =>
    some ({ gather with calls := gather.calls ++ [.called request mesh] },
      if request = .release then [.began gather.calls.length mesh] else [])
  | .advance index succeeds =>
    gather.calls[index]?.bind fun point =>
      (proceed index succeeds gather point).map (settle index)
  | .wake index =>
    gather.calls[index]?.map fun point =>
      ({ gather with calls := gather.calls.set index point.woken }, [])

/-- A call has a section to run: it has not ended, does not sleep and the mutex that it is
queued at is free. -/
def Able (index : Nat) (gather : Gather Mesh) : Prop :=
  ∃ point, gather.calls[index]? = some point ∧ (proceed index true gather point).isSome

/-- The condition on a step: a reserve whose allocation throws does not find its mesh
released. -/
def Supplied (gather : Gather Mesh) : Action Mesh → Prop
  | .advance index false =>
    ∀ mesh, gather.calls[index]? = some (.called .reserve mesh) →
      gather.registry mesh = none → gather.released mesh = false
  | _ => True

end Sections

end KvCache.GatherResources
