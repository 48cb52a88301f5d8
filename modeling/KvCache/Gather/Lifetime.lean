import KvCache.Gather.RegistryTrace

/-!
# The lifetime of the staging buffers

What a release has waited for when it returns, and that nothing is used after it until the
mesh is reserved again. The order of events is that of the history of a run; an operation
has started once it is counted.
-/

namespace KvCache.GatherResources

open Run Tally Fairness

variable {Mesh : Type} {gather after : Gather Mesh} {index : Nat}
  {caller : Option Nat} {old new : Point Mesh} {events trace : List (Event Mesh)}

/-- What is claimed of a run. -/
structure Lifetime (trace : List (Event Mesh)) (gather : Gather Mesh) : Prop where
  /-- An operation that was counted before a release is uncounted when the release returns. -/
  drained : ∀ operation release mesh,
    [.counted operation mesh, .began release mesh, .returned release mesh].Sublist trace →
      [.uncounted operation, .returned release mesh].Sublist trace
  /-- A release returns after the resources of its mesh were dropped. -/
  dropped : ∀ release mesh, .returned release mesh ∈ trace →
    [.began release mesh, .dropped mesh, .returned release mesh].Sublist trace
  /-- After a drop no operation is counted before a reserve has succeeded. -/
  closed : ∀ front between back mesh operation,
    trace = front ++ .dropped mesh :: (between ++ .counted operation mesh :: back) →
      .reserved mesh ∈ between
  /-- An operation is counted at most once. -/
  once : ∀ call, trace.countP (Event.counts call) ≤ 1
  /-- An operation that is in progress has not been uncounted; any other has been uncounted
  as often as counted. -/
  paired : ∀ call point, gather.calls[call]? = some point →
    trace.countP (Event.counts call) =
      trace.countP (Event.uncounts call) + if point.place.isSome then 1 else 0
  /-- An object counts the operations in progress on it. -/
  numbers : ∀ resources,
    (gather.objects resources).activeOperations = total (Point.active resources) gather.calls
  /-- Two operations do not use the resources of a mesh at the same time. -/
  exclusive : ∀ (mesh : Mesh) (one other first second : Nat),
    gather.calls[one]? = some (.holding mesh first) →
      gather.calls[other]? = some (.holding mesh second) → one = other

/-! ## Waiting -/

/-- The mesh that a call is to release. -/
def Point.releases : Point Mesh → Option Mesh
  | .called .release mesh | .draining mesh _ _ | .awaiting mesh _ _ | .notifying mesh
  | .returning mesh => some mesh
  | _ => none

/-- Operations that were counted before a release are over or still hold an object. -/
def HeldBy (trace : List (Event Mesh)) (gather : Gather Mesh) (release : Nat) (mesh : Mesh)
    (resources : Nat) : Prop :=
  ∀ operation, [.counted operation mesh, .began release mesh].Sublist trace →
    .uncounted operation ∈ trace ∨
      ∃ point, gather.calls[operation]? = some point ∧ point.place = some (mesh, resources)

/-- What a release has seen where it is. -/
def Waited (trace : List (Event Mesh)) (gather : Gather Mesh) (release : Nat) :
    Point Mesh → Prop
  | .draining mesh resources _ => HeldBy trace gather release mesh resources
  | .awaiting mesh resources _ => HeldBy trace gather release mesh resources ∧
      (gather.registry mesh = some resources ∨
        [.began release mesh, .dropped mesh].Sublist trace)
  | .notifying mesh | .returning mesh =>
    (∀ operation, [.counted operation mesh, .began release mesh].Sublist trace →
      .uncounted operation ∈ trace) ∧
      [.began release mesh, .dropped mesh].Sublist trace
  | _ => True

/-- What the history says about the releases of a run. -/
structure Recorded (trace : List (Event Mesh)) (gather : Gather Mesh) : Prop where
  began : ∀ call point mesh, gather.calls[call]? = some point → point.releases = some mesh →
    .began call mesh ∈ trace
  known : ∀ call mesh, .began call mesh ∈ trace → call < gather.calls.length
  operates : ∀ call mesh, .counted call mesh ∈ trace → .uncounted call ∈ trace ∨
    ∃ point resources, gather.calls[call]? = some point ∧ point.place = some (mesh, resources)
  waited : ∀ call point, gather.calls[call]? = some point → Waited trace gather call point
  drained : ∀ operation release mesh,
    [.counted operation mesh, .began release mesh, .returned release mesh].Sublist trace →
      [.uncounted operation, .returned release mesh].Sublist trace
  dropped : ∀ release mesh, .returned release mesh ∈ trace →
    [.began release mesh, .dropped mesh, .returned release mesh].Sublist trace

theorem recorded_initial : Recorded [] (Gather.initial : Gather Mesh) := by
  constructor <;> simp [Gather.initial]

/-! ## What a move leaves -/

/-- A move is seen by at most one event. -/
theorem Moves.short (moves : Moves gather index caller old new events) :
    events = [] ∨ ∃ event, events = [event] := by
  cases moves <;> simp

/-- An operation in progress stays on its object, or is uncounted. -/
theorem Moves.place (moves : Moves gather index caller old new events) {place : Mesh × Nat}
    (placed : old.place = some place) :
    new.place = some place ∨ .uncounted index ∈ events := by
  cases moves with
  | finishes => exact .inr (by simp)
  | drops mesh resources old entry drained releases =>
    obtain rfl | rfl := releases <;> cases placed
  | returns mesh old done => obtain rfl | rfl := done <;> cases placed
  | wakes => exact .inl (old.woken_place.trans placed)
  | _ => first | exact .inl placed | cases placed

/-- What a call is to release stays. -/
theorem Moves.releases (moves : Moves gather index caller old new events) {mesh : Mesh}
    (releases : new.releases = some mesh) : old.releases = some mesh := by
  cases moves with
  | drops other resources old entry drained before =>
    obtain rfl | rfl := before <;> exact releases
  | returns other old done => cases releases
  | wakes => cases old <;> exact releases
  | _ => first | exact releases | cases releases

theorem Point.woken_releases (point : Point Mesh) : point.woken.releases = point.releases := by
  cases point <;> rfl

theorem waited_woken {release : Nat} (point : Point Mesh) :
    Waited trace gather release point.woken ↔ Waited trace gather release point := by
  cases point <;> rfl

/-- A call that did not move is where it was, but may have woken. -/
theorem Others.before (others : Others gather after index old new) {call : Nat} {point : Point Mesh}
    (different : call ≠ index) (found : after.calls[call]? = some point) :
    ∃ earlier, gather.calls[call]? = some earlier ∧
      (point = earlier ∨ point = earlier.woken) := by
  obtain same | woken := others.same call different
  · exact ⟨point, same ▸ found, .inl rfl⟩
  · rw [found] at woken
    obtain ⟨earlier, at_call, rfl⟩ := Option.map_eq_some_iff.mp woken.symm
    exact ⟨earlier, at_call, .inr rfl⟩

theorem Others.later (others : Others gather after index old new) {call : Nat} {point : Point Mesh}
    (different : call ≠ index) (found : gather.calls[call]? = some point) :
    ∃ next, after.calls[call]? = some next ∧ (next = point ∨ next = point.woken) := by
  obtain same | woken := others.same call different
  · exact ⟨point, same.trans found, .inl rfl⟩
  · exact ⟨point.woken, by rw [woken, found, Option.map_some], .inr rfl⟩

/-- Before a release waits, the operations counted before it are over or hold the object
that the registry has. -/
theorem Recorded.heldBy (recorded : Recorded trace gather) (sound : Sound gather)
    {release : Nat} {mesh : Mesh} {resources : Nat}
    (entry : gather.registry mesh = some resources) :
    HeldBy trace gather release mesh resources := by
  intro operation ordered
  have counted : Event.counted operation mesh ∈ trace := ordered.subset (by simp)
  obtain ended | ⟨point, object, found, placed⟩ := recorded.operates operation mesh counted
  · exact .inl ended
  · right
    have held := sound.placed (List.mem_of_getElem? found) placed
    have same : object = resources := Option.some.inj (held.symm.trans entry)
    exact ⟨point, found, same ▸ placed⟩

/-- When the registry has lost an object, no operation holds it. -/
theorem HeldBy.spent {release : Nat} {mesh : Mesh} {resources : Nat}
    (held : HeldBy trace gather release mesh resources) (sound : Sound gather)
    (free : gather.registry mesh ≠ some resources ∨
      (gather.objects resources).activeOperations = 0) (operation : Nat)
    (ordered : [.counted operation mesh, .began release mesh].Sublist trace) :
    .uncounted operation ∈ trace := by
  obtain ended | ⟨point, found, placed⟩ := held operation ordered
  · exact ended
  · exfalso
    have member := List.mem_of_getElem? found
    obtain gone | drained := free
    · exact gone (sound.placed member placed)
    · have part := weight_of_mem (Point.active resources) member
      rw [← sound.counts, drained, Point.active_of_place placed] at part
      omega

section Steps

variable [DecidableEq Mesh] {action : Action Mesh}

/-- A step is seen by at most one event. -/
theorem step_short (sound : Sound gather) (stepped : step gather action = some (after, events)) :
    events = [] ∨ ∃ event, events = [event] := by
  obtain ⟨request, mesh, _, _, rfl⟩ | ⟨_, _, _, _, _, _, moves⟩ := step_moves sound stepped
  · split
    · exact .inr ⟨_, rfl⟩
    · exact .inl rfl
  · exact moves.short

/-- No call is forgotten. -/
theorem step_keeps (sound : Sound gather) (stepped : step gather action = some (after, events))
    {call : Nat} (known : call < gather.calls.length) : call < after.calls.length := by
  obtain ⟨_, _, _, calls, _⟩ | ⟨index, _, _, _, placed, others, _⟩ := step_moves sound stepped
  · rw [calls, List.length_append]
    omega
  · by_cases here : call = index
    · exact here ▸ (List.getElem?_eq_some_iff.mp placed).1
    · obtain ⟨next, found, _⟩ := others.later here (List.getElem?_eq_getElem known)
      exact (List.getElem?_eq_some_iff.mp found).1

/-- A release that was called before does not begin again. -/
theorem step_begins (sound : Sound gather) (stepped : step gather action = some (after, events))
    {call : Nat} {mesh : Mesh} (seen : .began call mesh ∈ events) :
    call = gather.calls.length ∧ call < after.calls.length := by
  obtain ⟨request, other, _, calls, rfl⟩ | ⟨_, _, _, _, _, _, moves⟩ := step_moves sound stepped
  · split at seen
    · have same : call = gather.calls.length := by
        simp only [List.mem_singleton, Event.began.injEq] at seen
        exact seen.1
      rw [calls, same, List.length_append]
      simp
    · cases seen
  · generalize action.caller = caller at moves
    cases moves <;> simp at seen

/-- Events that end with the beginning of a known release were there before. -/
theorem began_before (sound : Sound gather) (stepped : step gather action = some (after, events))
    (earlier : List (Event Mesh)) {release : Nat} {mesh : Mesh}
    (known : release < gather.calls.length)
    (ordered : (earlier ++ [Event.began release mesh]).Sublist (trace ++ events)) :
    (earlier ++ [Event.began release mesh]).Sublist trace := by
  obtain rfl | ⟨event, rfl⟩ := step_short sound stepped
  · simpa using ordered
  · obtain before | ⟨same, _⟩ := sublist_concat ordered
    · exact before
    · have seen : Event.began release mesh ∈ [event] := by simp [same]
      have new := (step_begins sound stepped seen).1
      omega

/-- An operation in progress stays on its object, or is uncounted. -/
theorem step_places (sound : Sound gather) (stepped : step gather action = some (after, events))
    {call : Nat} {point : Point Mesh} {place : Mesh × Nat}
    (found : gather.calls[call]? = some point) (placed : point.place = some place) :
    .uncounted call ∈ events ∨ ∃ next, after.calls[call]? = some next ∧ next.place = some place := by
  obtain ⟨_, _, _, calls, _⟩ | ⟨index, old, new, at_index, moved, others, moves⟩ :=
    step_moves sound stepped
  · right
    use point
    rw [calls, List.getElem?_append_left (List.getElem?_eq_some_iff.mp found).1]
    exact ⟨found, placed⟩
  · by_cases here : call = index
    · subst here
      have same : old = point := Option.some.inj (at_index.symm.trans found)
      obtain stays | seen := moves.place (same ▸ placed)
      · exact .inr ⟨new, moved, stays⟩
      · exact .inl seen
    · right
      obtain ⟨next, later, rfl | rfl⟩ := others.later here found
      · exact ⟨_, later, placed⟩
      · exact ⟨_, later, point.woken_place.trans placed⟩

/-- Operations that a release waits for stay on the object or are over. -/
theorem HeldBy.steps {release : Nat} {mesh : Mesh} {resources : Nat}
    (held : HeldBy trace gather release mesh resources) (known : release < gather.calls.length)
    (sound : Sound gather) (stepped : step gather action = some (after, events)) :
    HeldBy (trace ++ events) after release mesh resources := by
  intro operation ordered
  obtain ended | ⟨point, found, placed⟩ :=
    held operation (began_before sound stepped [_] known ordered)
  · exact .inl (List.mem_append_left _ ended)
  · obtain seen | stays := step_places sound stepped found placed
    · exact .inl (List.mem_append_right _ seen)
    · exact .inr stays

/-- What a release has seen stays, wherever it waits. -/
theorem Waited.steps {release : Nat} {point : Point Mesh} (waited : Waited trace gather release point)
    (known : release < gather.calls.length)
    (began : ∀ mesh, point.releases = some mesh → .began release mesh ∈ trace)
    (sound : Sound gather) (stepped : step gather action = some (after, events)) :
    Waited (trace ++ events) after release point := by
  cases point with
  | draining mesh resources asleep => exact HeldBy.steps waited known sound stepped
  | awaiting mesh resources asleep =>
    obtain ⟨held, entry | ordered⟩ := waited
    · refine ⟨held.steps known sound stepped, ?_⟩
      obtain stays | seen := (step_registers stepped).keeps mesh resources entry
      · exact .inl stays
      · right
        have first : [Event.began release mesh].Sublist trace :=
          List.singleton_sublist.mpr (began mesh rfl)
        exact first.append (List.singleton_sublist.mpr seen)
    · exact ⟨held.steps known sound stepped, .inr (sublist_later ordered _)⟩
  | notifying mesh | returning mesh =>
    constructor
    · intro operation ordered
      exact List.mem_append_left _
        (waited.1 operation (began_before sound stepped [_] known ordered))
    · exact sublist_later waited.2 _
  | _ => trivial

/-- A release that moves has seen what it needs where it is then. -/
theorem Moves.waited (moves : Moves gather index caller old new events) (recorded : Recorded trace gather)
    (sound : Sound gather) (found : gather.calls[index]? = some old)
    (stepped : step gather action = some (after, events)) :
    Waited (trace ++ events) after index new := by
  have known := (List.getElem?_eq_some_iff.mp found).1
  have began : ∀ mesh, new.releases = some mesh → .began index mesh ∈ trace := fun mesh releases =>
    recorded.began index old mesh found (moves.releases releases)
  have before := recorded.waited index old found
  -- What is dropped in the move is appended; otherwise the move has seen nothing new.
  have dropped (mesh : Mesh) (releases : new.releases = some mesh) :
      [.began index mesh, .dropped mesh].Sublist (trace ++ [.dropped mesh]) :=
    sublist_then (List.singleton_sublist.mpr (began mesh releases)) (.dropped mesh)
  cases moves with
  | records mesh absent =>
    refine ⟨fun operation ordered => ?_, dropped mesh rfl⟩
    have ordered := began_before sound stepped [_] known ordered
    have counted : Event.counted operation mesh ∈ trace := ordered.subset (by simp)
    obtain ended | ⟨point, object, listed, placed⟩ := recorded.operates operation mesh counted
    · exact List.mem_append_left _ ended
    · have held := sound.placed (List.mem_of_getElem? listed) placed
      simp [absent] at held
  | drops mesh resources old entry drained releases =>
    refine ⟨fun operation ordered => ?_, dropped mesh rfl⟩
    have ordered := began_before sound stepped [_] known ordered
    exact List.mem_append_left _
      ((recorded.heldBy sound entry).spent sound (.inr drained) operation ordered)
  | joins mesh resources entry =>
    have waits : Waited trace gather index (.awaiting mesh resources true) :=
      ⟨recorded.heldBy sound entry, .inl entry⟩
    exact waits.steps known began sound stepped
  | closes mesh resources entry =>
    have waits : Waited trace gather index (.draining mesh resources true) :=
      recorded.heldBy sound entry
    exact waits.steps known began sound stepped
  | drains mesh resources busy =>
    have waits : Waited trace gather index (.draining mesh resources true) := before
    exact waits.steps known began sound stepped
  | awaits mesh resources entry =>
    have waits : Waited trace gather index (.awaiting mesh resources true) := before
    exact waits.steps known began sound stepped
  | leaves mesh resources gone =>
    obtain ⟨held, entry | ordered⟩ := before
    · exact absurd entry gone
    · have waits : Waited trace gather index (.returning mesh) :=
        ⟨held.spent sound (.inl gone), ordered⟩
      exact waits.steps known began sound stepped
  | wakes => exact ((waited_woken old).mpr before).steps known began sound stepped
  | _ => trivial

/-- Every step keeps the record. -/
theorem Recorded.steps (recorded : Recorded trace gather) (sound : Sound gather)
    (stepped : step gather action = some (after, events)) : Recorded (trace ++ events) after where
  began := by
    intro call point mesh found releases
    obtain ⟨request, other, _, calls, rfl⟩ | ⟨index, old, new, at_index, moved, others, moves⟩ :=
      step_moves sound stepped
    · rw [calls] at found
      by_cases known : call < gather.calls.length
      · rw [List.getElem?_append_left known] at found
        exact List.mem_append_left _ (recorded.began call point mesh found releases)
      · have last : call = gather.calls.length := by
          have short := (List.getElem?_eq_some_iff.mp found).1
          simp only [List.length_append, List.length_singleton] at short
          omega
        have same : point = .called request other := by
          simpa [last] using found.symm
        subst same
        cases request with
        | release =>
          have here : other = mesh := Option.some.inj releases
          simp [last, here]
        | _ => cases releases
    · apply List.mem_append_left
      by_cases here : call = index
      · subst here
        have same : new = point := Option.some.inj (moved.symm.trans found)
        exact recorded.began call old mesh at_index (moves.releases (same ▸ releases))
      · obtain ⟨earlier, listed, rfl | rfl⟩ := others.before here found
        · exact recorded.began call _ mesh listed releases
        · exact recorded.began call _ mesh listed (earlier.woken_releases ▸ releases)
  known := by
    intro call mesh seen
    obtain before | new := List.mem_append.mp seen
    · exact step_keeps sound stepped (recorded.known call mesh before)
    · exact (step_begins sound stepped new).2
  operates := by
    intro call mesh seen
    obtain before | new := List.mem_append.mp seen
    · obtain ended | ⟨point, resources, found, placed⟩ := recorded.operates call mesh before
      · exact .inl (List.mem_append_left _ ended)
      · obtain ended | ⟨next, later, stays⟩ := step_places sound stepped found placed
        · exact .inl (List.mem_append_right _ ended)
        · exact .inr ⟨next, resources, later, stays⟩
    · right
      obtain ⟨request, other, _, _, rfl⟩ | ⟨index, old, moved_to, _, moved, _, moves⟩ :=
        step_moves sound stepped
      · split at new <;> simp at new
      · generalize action.caller = caller at moves
        cases moves with
        | counts other resources opened =>
          simp only [List.mem_singleton, Event.counted.injEq] at new
          obtain ⟨rfl, rfl⟩ := new
          exact ⟨_, resources, moved, rfl⟩
        | _ => simp at new
  waited := by
    intro call point found
    obtain ⟨request, mesh, _, calls, _⟩ | ⟨index, old, new, at_index, moved, others, moves⟩ :=
      step_moves sound stepped
    · by_cases known : call < gather.calls.length
      · rw [calls, List.getElem?_append_left known] at found
        exact (recorded.waited call point found).steps known
          (fun mesh => recorded.began call point mesh found) sound stepped
      · have last : call = gather.calls.length := by
          have short := (List.getElem?_eq_some_iff.mp found).1
          simp only [calls, List.length_append, List.length_singleton] at short
          omega
        have same : point = .called request mesh := by
          simpa [calls, last] using found.symm
        subst same
        trivial
    · by_cases here : call = index
      · subst here
        have same : new = point := Option.some.inj (moved.symm.trans found)
        exact same ▸ moves.waited recorded sound at_index stepped
      · obtain ⟨earlier, listed, kept⟩ := others.before here found
        have known := (List.getElem?_eq_some_iff.mp listed).1
        have waits := (recorded.waited call earlier listed).steps known
          (fun mesh => recorded.began call earlier mesh listed) sound stepped
        obtain rfl | rfl := kept
        · exact waits
        · exact (waited_woken earlier).mpr waits
  drained := by
    intro operation release mesh ordered
    obtain rfl | ⟨event, rfl⟩ := step_short sound stepped
    · simpa using recorded.drained operation release mesh (by simpa using ordered)
    · have ends : ([Event.counted operation mesh, .began release mesh] ++
          [Event.returned release mesh]).Sublist (trace ++ [event]) := ordered
      obtain before | ⟨same, began⟩ := sublist_concat ends
      · exact sublist_later (recorded.drained operation release mesh before) _
      · subst same
        obtain ⟨request, other, _, _, seen⟩ | ⟨index, old, new, at_index, _, _, moves⟩ :=
          step_moves sound stepped
        · split at seen <;> cases seen
        · generalize action.caller = caller at moves
          cases moves with
          | returns mesh old done =>
            have waits := recorded.waited release old at_index
            have ended : .uncounted operation ∈ trace := by
              obtain rfl | rfl := done
              · exact waits.1 operation began
              · exact waits.1 operation began
            exact sublist_then (List.singleton_sublist.mpr ended) _
  dropped := by
    intro release mesh returned
    obtain before | new := List.mem_append.mp returned
    · exact sublist_later (recorded.dropped release mesh before) _
    · obtain ⟨request, other, _, _, rfl⟩ | ⟨index, old, next, at_index, _, _, moves⟩ :=
        step_moves sound stepped
      · split at new <;> simp at new
      · generalize action.caller = caller at moves
        cases moves with
        | returns other old done =>
          simp only [List.mem_singleton, Event.returned.injEq] at new
          obtain ⟨rfl, rfl⟩ := new
          have waits := recorded.waited release old at_index
          have ordered : [.began release mesh, .dropped mesh].Sublist trace := by
            obtain rfl | rfl := done
            · exact waits.2
            · exact waits.2
          exact sublist_then ordered _
        | _ => simp at new

/-! ## A mesh that was released -/

/-- A mesh that was dropped is recorded as released and has no entry, or was reserved since;
operations were counted only after a reserve. -/
structure Shut (trace : List (Event Mesh)) (gather : Gather Mesh) : Prop where
  pending : ∀ front back mesh, trace = front ++ .dropped mesh :: back →
    .reserved mesh ∈ back ∨ (gather.released mesh = true ∧ gather.registry mesh = none)
  closed : ∀ front between back mesh operation,
    trace = front ++ .dropped mesh :: (between ++ .counted operation mesh :: back) →
      .reserved mesh ∈ between

/-- Every step that meets the condition keeps a released mesh shut. -/
theorem Shut.steps (shut : Shut trace gather) (sound : Sound gather)
    (supplied : Supplied gather action) (stepped : step gather action = some (after, events)) :
    Shut (trace ++ events) after := by
  have registers := step_registers stepped
  obtain rfl | ⟨event, rfl⟩ := step_short sound stepped
  · rw [List.append_nil]
    refine ⟨fun front back mesh split => ?_, shut.closed⟩
    obtain again | ⟨recorded, absent⟩ := shut.pending front back mesh split
    · exact .inl again
    · obtain kept | seen := registers.shut supplied mesh recorded absent
      · exact .inr kept
      · cases seen
  · constructor
    · intro front back mesh split
      obtain ⟨rfl, same, _⟩ | ⟨rest, rfl, before⟩ := split_concat split
      · exact .inr (registers.drops mesh (by simp [same]))
      · obtain again | ⟨recorded, absent⟩ := shut.pending front rest mesh before
        · exact .inl (List.mem_append_left _ again)
        · obtain kept | seen := registers.shut supplied mesh recorded absent
          · exact .inr kept
          · exact .inl (List.mem_append_right _ seen)
    · intro front between back mesh operation split
      rw [← List.cons_append, ← List.append_assoc] at split
      obtain ⟨_, same, before⟩ | ⟨rest, _, before⟩ := split_concat split
      · -- The operation is counted in this step: its mesh is not recorded as released.
        obtain again | ⟨recorded, _⟩ := shut.pending front between mesh before.symm
        · exact again
        · have unreleased := registers.counts operation mesh (by simp [same])
          rw [unreleased] at recorded
          cases recorded
      · exact shut.closed front between rest mesh operation (by simpa using before)

/-- What holds of a run whose steps meet the condition. -/
structure Kept (trace : List (Event Mesh)) (gather : Gather Mesh) : Prop where
  sound : Sound gather
  tallied : Tallied trace gather
  recorded : Recorded trace gather
  shut : Shut trace gather

theorem kept_of_run (run : Run (TakesWhere step Supplied) .initial trace gather) :
    Kept trace gather := by
  refine run.history Kept ?_ ?_
  · exact ⟨sound_initial, ⟨by simp [Gather.initial], by simp [Gather.initial]⟩, recorded_initial,
      ⟨by simp, by simp⟩⟩
  · rintro past state events after kept ⟨action, supplied, stepped⟩
    exact ⟨kept.sound.steps stepped, kept.tallied.steps kept.sound stepped,
      kept.recorded.steps kept.sound stepped, kept.shut.steps kept.sound supplied stepped⟩

end Steps

/-- What is kept is what is claimed. -/
theorem Kept.lifetime (kept : Kept trace gather) : Lifetime trace gather where
  drained := kept.recorded.drained
  dropped := kept.recorded.dropped
  closed := kept.shut.closed
  once := by
    intro call
    rw [kept.tallied.counted]
    cases gather.calls[call]? with
    | none => exact Nat.zero_le 1
    | some point => cases point <;> simp [Point.timesCounted]
  paired := by
    intro call point found
    rw [kept.tallied.counted, kept.tallied.uncounted, found]
    cases point <;> rfl
  numbers := kept.sound.counts
  exclusive := by
    intro mesh one other first second found also
    have entry := kept.sound.fits _ (List.mem_of_getElem? found)
    have same := kept.sound.fits _ (List.mem_of_getElem? also)
    have shared : first = second := Option.some.inj (entry.symm.trans same)
    subst shared
    by_contra different
    have both := weights_le_total (Point.owns first) found also different
    rw [kept.sound.mutex] at both
    simp only [Point.owns, if_true] at both
    split at both <;> omega

end KvCache.GatherResources
