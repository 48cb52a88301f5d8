import KvCache.Gather.Lifetime

/-!
# Every release returns

A call is scheduled fairly when it acts again whenever it stays able to; for the owner of
a mutex that means that its operation ends. Under fair scheduling of every call a release
returns, whatever else is called in the meantime.

A release that waits is helped by the operations on its object, by the release that drains
the object, by one that is about to notify, and at last by itself. The work that the
operations have left ranks its way: no operation is counted on an object that is being
released, so this work never grows.
-/

namespace KvCache.GatherResources

open Run Tally Fairness

variable {Mesh : Type} {gather after : Gather Mesh} {index call : Nat}
  {caller : Option Nat} {old new : Point Mesh} {events : List (Event Mesh)}

/-! ## The work on an object -/

/-- The sections that an operation on an object has left. -/
def Point.work (resources : Nat) : Point Mesh → Nat
  | .queued _ other => if other = resources then 3 else 0
  | .holding _ other => if other = resources then 2 else 0
  | .finishing _ other => if other = resources then 1 else 0
  | _ => 0

theorem Point.woken_work (resources : Nat) (point : Point Mesh) :
    point.woken.work resources = point.work resources := by
  cases point <;> rfl

/-- A call is an operation on an object that can go on: it holds the mutex or has left it,
or it is queued and the mutex is free. -/
def Works (gather : Gather Mesh) (resources helper : Nat) : Prop :=
  ∃ point, gather.calls[helper]? = some point ∧ 0 < point.work resources ∧
    (point.work resources = 3 → total (Point.owns resources) gather.calls = 0)

theorem Point.work_of_owns {resources : Nat} {point : Point Mesh}
    (owns : 0 < point.owns resources) : point.work resources = 2 := by
  cases point with
  | holding mesh other =>
    by_cases here : other = resources
    · simp [Point.work, here]
    · simp [Point.owns, here] at owns
  | _ => simp [Point.owns] at owns

/-- An object with work left has an operation that can go on. -/
theorem exists_works {resources : Nat} (left : 0 < total (Point.work resources) gather.calls) :
    ∃ helper, Works gather resources helper := by
  by_cases free : total (Point.owns resources) gather.calls = 0
  · obtain ⟨helper, point, found, works⟩ := weight_of_total left
    exact ⟨helper, point, found, works, fun _ => free⟩
  · obtain ⟨helper, point, found, owns⟩ := weight_of_total (Nat.pos_of_ne_zero free)
    have works := point.work_of_owns owns
    exact ⟨helper, point, found, by omega, by omega⟩

/-- Work left is a bound for the number of operations. -/
theorem Sound.idle (sound : Sound gather) {resources : Nat}
    (done : total (Point.work resources) gather.calls = 0) :
    (gather.objects resources).activeOperations = 0 := by
  rw [sound.counts]
  by_contra busy
  obtain ⟨helper, point, found, active⟩ := weight_of_total (Nat.pos_of_ne_zero busy)
  have part := weight_le_total (Point.work resources) found
  have works : point.active resources ≤ point.work resources := by
    cases point <;> simp only [Point.active, Point.work, Nat.le_refl]
    all_goals split <;> omega
  omega

/-- While an object is being released, a move does not add work to it. A move that leaves the
work of a working call is a wakeup and leaves the mutex. -/
theorem Moves.work (moves : Moves gather index caller old new events) (sound : Sound gather)
    {mesh : Mesh} {resources : Nat} (entry : gather.registry mesh = some resources)
    (releasing : (gather.objects resources).releasing = true) :
    new.work resources ≤ old.work resources ∧
      (new.work resources = old.work resources →
        new.owns resources = old.owns resources ∧ (0 < old.work resources → caller = none)) := by
  cases moves with
  | counts other object opened =>
    have different : object ≠ resources := by
      rintro rfl
      have under := sound.below mesh object entry
      obtain new | idle := opened
      · omega
      · simp [releasing] at idle
    simp [Point.work, Point.owns, different]
  | drops other object old held drained releases =>
    obtain rfl | rfl := releases <;> simp [Point.work, Point.owns]
  | returns other old done => obtain rfl | rfl := done <;> simp [Point.work, Point.owns]
  | wakes =>
    rw [Point.woken_work, (old.woken_weights resources).2.1]
    simp
  | locks other object | fails other object | unlocks other object | finishes other object =>
    by_cases here : object = resources <;> simp [Point.work, Point.owns, here]
  | _ => simp [Point.work, Point.owns]

section Steps

variable [DecidableEq Mesh] {action : Action Mesh}

/-- A step while an object is being released: the work left does not grow; while it stays, an
operation that can go on still can and has not acted. -/
theorem step_work (sound : Sound gather) (stepped : step gather action = some (after, events))
    {mesh : Mesh} {resources : Nat} (entry : gather.registry mesh = some resources)
    (releasing : (gather.objects resources).releasing = true) :
    total (Point.work resources) after.calls ≤ total (Point.work resources) gather.calls ∧
      (total (Point.work resources) after.calls = total (Point.work resources) gather.calls →
        ∀ helper, Works gather resources helper →
          Works after resources helper ∧ action.caller ≠ some helper) := by
  obtain ⟨request, other, silent, calls, _⟩ | ⟨index, old, new, at_index, moved, others, moves⟩ :=
    step_moves sound stepped
  · have kept : ∀ weight : Point Mesh → Nat, weight (.called request other) = 0 →
        total weight after.calls = total weight gather.calls := by
      intro weight nothing
      simp [calls, nothing]
    constructor
    · exact (kept _ rfl).le
    · rintro _ helper ⟨point, found, works, free⟩
      have short := (List.getElem?_eq_some_iff.mp found).1
      refine ⟨⟨point, ?_, works, ?_⟩, by simp [silent]⟩
      · rw [calls, List.getElem?_append_left short]
        exact found
      · rw [kept _ rfl]
        exact free
  · have left := others.totals (Point.work resources) (Point.woken_work resources)
    have owned := others.totals (Point.owns resources)
      fun point => (point.woken_weights resources).2.1
    obtain ⟨less, equal⟩ := moves.work sound entry releasing
    constructor
    · omega
    · rintro same helper ⟨point, found, works, free⟩
      obtain ⟨owner, asleep⟩ := equal (by omega)
      by_cases here : helper = index
      · subst here
        have old_eq : old = point := Option.some.inj (at_index.symm.trans found)
        subst old_eq
        have silent := asleep works
        refine ⟨⟨new, moved, by omega, fun three => ?_⟩, by simp [silent]⟩
        have none := free (by omega)
        omega
      · constructor
        · obtain ⟨next, later, rfl | rfl⟩ := others.later here found
          · exact ⟨_, later, works, fun three => by have none := free three; omega⟩
          · rw [← Point.woken_work] at works free
            exact ⟨_, later, works, fun three => by have none := free three; omega⟩
        · intro acted
          generalize action.caller = caller at moves acted
          cases moves <;> simp_all

/-- A call stays where it is, but may wake, or it moves by a section of its own. -/
theorem step_call (sound : Sound gather) (stepped : step gather action = some (after, events))
    {point : Point Mesh} (found : gather.calls[call]? = some point) :
    (∃ next, after.calls[call]? = some next ∧ (next = point ∨ next = point.woken) ∧
        action.caller ≠ some call) ∨
      ∃ new, after.calls[call]? = some new ∧ action.caller = some call ∧
        Moves gather call (some call) point new events := by
  obtain ⟨request, other, silent, calls, _⟩ | ⟨index, old, new, at_index, moved, others, moves⟩ :=
    step_moves sound stepped
  · left
    have short := (List.getElem?_eq_some_iff.mp found).1
    refine ⟨point, ?_, .inl rfl, by simp [silent]⟩
    rw [calls, List.getElem?_append_left short]
    exact found
  · have owner : action.caller = some index ∨ (action.caller = none ∧ new = old.woken) := by
      generalize action.caller = caller at moves
      cases moves <;> simp
    by_cases here : call = index
    · subst here
      have same : old = point := Option.some.inj (at_index.symm.trans found)
      subst same
      obtain own | ⟨silent, woken⟩ := owner
      · exact .inr ⟨new, moved, own, own ▸ moves⟩
      · exact .inl ⟨new, moved, .inr woken, by simp [silent]⟩
    · left
      obtain ⟨next, later, kept⟩ := others.later here found
      refine ⟨next, later, kept, ?_⟩
      obtain own | ⟨silent, _⟩ := owner
      · rw [own]
        exact fun same => here (Option.some.inj same).symm
      · simp [silent]

/-- A notification wakes every other call. -/
theorem step_notifies {helper : Nat} {mesh : Mesh}
    (stepped : step gather action = some (after, events)) (acted : action.caller = some helper)
    (notifies : gather.calls[helper]? = some (.notifying mesh)) (different : call ≠ helper) :
    after.calls[call]? = gather.calls[call]?.map Point.woken := by
  cases action with
  | call request other => cases acted
  | wake index => cases acted
  | advance index succeeds =>
    obtain rfl : index = helper := Option.some.inj acted
    simp only [step, notifies, Option.bind_some, proceed, Option.map_some, settle, notifyAll,
      Option.some.injEq, Prod.mk.injEq] at stepped
    obtain ⟨rfl, _⟩ := stepped
    simp [List.getElem?_set_ne different.symm]

end Steps

/-! ## Who helps a release -/

/-- A rank of a release on its way, and a call that helps it. -/
inductive Helped (gather : Gather Mesh) (call : Nat) : Nat → Nat → Prop where
  | draining {mesh : Mesh} {resources helper : Nat} {asleep : Bool}
      (found : gather.calls[call]? = some (.draining mesh resources asleep))
      (works : Works gather resources helper) :
      Helped gather call (2 + total (Point.work resources) gather.calls) helper
  | drained {mesh : Mesh} {resources : Nat} {asleep : Bool}
      (found : gather.calls[call]? = some (.draining mesh resources asleep))
      (done : total (Point.work resources) gather.calls = 0) : Helped gather call 2 call
  | awaiting {mesh : Mesh} {resources helper : Nat} {asleep : Bool}
      (found : gather.calls[call]? = some (.awaiting mesh resources asleep))
      (entry : gather.registry mesh = some resources)
      (works : Works gather resources helper) :
      Helped gather call (4 + total (Point.work resources) gather.calls) helper
  | dropping {mesh : Mesh} {resources helper : Nat} {asleep sleeps : Bool}
      (found : gather.calls[call]? = some (.awaiting mesh resources asleep))
      (entry : gather.registry mesh = some resources)
      (done : total (Point.work resources) gather.calls = 0)
      (drains : gather.calls[helper]? = some (.draining mesh resources sleeps)) :
      Helped gather call 4 helper
  | unnotified {mesh other : Mesh} {resources helper : Nat}
      (found : gather.calls[call]? = some (.awaiting mesh resources true))
      (gone : gather.registry mesh ≠ some resources)
      (notifies : gather.calls[helper]? = some (.notifying other)) : Helped gather call 3 helper
  | notified {mesh : Mesh} {resources : Nat}
      (found : gather.calls[call]? = some (.awaiting mesh resources false))
      (gone : gather.registry mesh ≠ some resources) : Helped gather call 2 call
  | leaving {mesh : Mesh} (found : gather.calls[call]? = some (.notifying mesh) ∨
      gather.calls[call]? = some (.returning mesh)) : Helped gather call 1 call

/-- A release that drains is helped. -/
theorem helped_draining {mesh : Mesh} {resources : Nat} {asleep : Bool}
    (found : gather.calls[call]? = some (.draining mesh resources asleep)) :
    ∃ helper, Helped gather call (2 + total (Point.work resources) gather.calls) helper := by
  obtain done | left := Nat.eq_zero_or_pos (total (Point.work resources) gather.calls)
  · exact ⟨call, done ▸ .drained found done⟩
  · obtain ⟨helper, works⟩ := exists_works left
    exact ⟨helper, .draining found works⟩

/-- An object that is being released is drained by a release. -/
theorem Sound.drainedBy (sound : Sound gather) {mesh : Mesh} {resources : Nat}
    (entry : gather.registry mesh = some resources)
    (releasing : (gather.objects resources).releasing = true) :
    ∃ (helper : Nat) (asleep : Bool),
      gather.calls[helper]? = some (.draining mesh resources asleep) := by
  have one := sound.drainer mesh resources entry
  rw [releasing, if_pos rfl] at one
  have positive : 0 < total (Point.drains resources) gather.calls := by omega
  obtain ⟨helper, point, found, drains⟩ := weight_of_total positive
  have fits := sound.fits point (List.mem_of_getElem? found)
  cases point with
  | draining other object asleep =>
    have here : object = resources := by
      by_contra different
      simp [Point.drains, different] at drains
    subst here
    have same := sound.own mesh other object entry fits.1
    exact ⟨helper, asleep, same ▸ found⟩
  | _ => simp [Point.drains] at drains

/-- A release that awaits the drop of an object that the registry has is helped. -/
theorem helped_awaiting (sound : Sound gather) {mesh : Mesh} {resources : Nat} {asleep : Bool}
    (found : gather.calls[call]? = some (.awaiting mesh resources asleep))
    (entry : gather.registry mesh = some resources) :
    ∃ helper, Helped gather call (4 + total (Point.work resources) gather.calls) helper := by
  have fits := sound.fits _ (List.mem_of_getElem? found)
  obtain done | left := Nat.eq_zero_or_pos (total (Point.work resources) gather.calls)
  · obtain ⟨helper, sleeps, drains⟩ := sound.drainedBy entry (fits.1.2 entry)
    exact ⟨helper, done ▸ .dropping found entry done drains⟩
  · obtain ⟨helper, works⟩ := exists_works left
    exact ⟨helper, .awaiting found entry works⟩

/-- A release that awaits the drop of an object that the registry has lost is helped. -/
theorem helped_gone (sound : Sound gather) {mesh : Mesh} {resources : Nat} {asleep : Bool}
    (found : gather.calls[call]? = some (.awaiting mesh resources asleep))
    (gone : gather.registry mesh ≠ some resources) :
    ∃ rank helper, rank < 4 ∧ Helped gather call rank helper := by
  have fits := sound.fits _ (List.mem_of_getElem? found)
  cases asleep with
  | false => exact ⟨2, call, by omega, .notified found gone⟩
  | true =>
    obtain same | ⟨other, notifies⟩ := fits.2 rfl
    · exact absurd same gone
    · obtain ⟨helper, listed⟩ := List.getElem?_of_mem notifies
      exact ⟨3, helper, by omega, .unnotified found gone listed⟩

/-- A helper is able to act. -/
theorem Helped.able [DecidableEq Mesh] {rank helper : Nat} (sound : Sound gather)
    (helped : Helped gather call rank helper) : Able helper gather := by
  have works {resources : Nat} (works : Works gather resources helper) : Able helper gather := by
    obtain ⟨point, found, left, free⟩ := works
    refine ⟨point, found, ?_⟩
    cases point with
    | queued mesh other =>
      have here : other = resources := by
        by_contra different
        simp [Point.work, different] at left
      subst here
      have unowned := free (by simp [Point.work])
      rw [sound.mutex] at unowned
      have unlocked : (gather.objects other).operationMutex = false := by
        by_contra owned
        simp [owned] at unowned
      simp [proceed, unlocked]
    | holding mesh other => rfl
    | finishing mesh other => rfl
    | _ => simp [Point.work] at left
  have drains {drain : Nat} {mesh : Mesh} {resources : Nat} {asleep : Bool}
      (found : gather.calls[drain]? = some (.draining mesh resources asleep))
      (done : total (Point.work resources) gather.calls = 0) : Able drain gather := by
    have fits := sound.fits _ (List.mem_of_getElem? found)
    cases asleep with
    | false => exact ⟨_, found, rfl⟩
    | true => exact absurd (sound.idle done) (fits.2.2 rfl)
  cases helped with
  | draining found helps => exact works helps
  | drained found done => exact drains found done
  | awaiting found entry helps => exact works helps
  | dropping found entry done draining => exact drains draining done
  | unnotified found gone notifies => exact ⟨_, notifies, rfl⟩
  | notified found gone => exact ⟨_, found, rfl⟩
  | leaving found =>
    obtain found | found := found
    · exact ⟨_, found, rfl⟩
    · exact ⟨_, found, rfl⟩

section Steps

variable [DecidableEq Mesh] {action : Action Mesh}

/-- What a step does to a release that drains. -/
theorem draining_next (sound : Sound gather) (stepped : step gather action = some (after, events))
    {mesh : Mesh} {resources : Nat} {asleep : Bool}
    (found : gather.calls[call]? = some (.draining mesh resources asleep)) :
    (∃ next : Bool, after.calls[call]? = some (.draining mesh resources next) ∧
        (action.caller = some call → (gather.objects resources).activeOperations ≠ 0)) ∨
      (after.calls[call]? = some (.notifying mesh) ∧ .dropped mesh ∈ events) := by
  obtain ⟨next, later, rfl | rfl, silent⟩ | ⟨new, moved, _, moves⟩ := step_call sound stepped found
  · exact .inl ⟨asleep, later, fun acted => absurd acted silent⟩
  · exact .inl ⟨false, later, fun acted => absurd acted silent⟩
  · cases moves with
    | drops other object old entry drained releases =>
      obtain impossible | same := releases
      · cases impossible
      · cases same
        exact .inr ⟨moved, List.mem_singleton_self _⟩
    | drains other object busy => exact .inl ⟨true, moved, fun _ => busy⟩
    | returns other old done => obtain impossible | impossible := done <;> cases impossible

/-- What a step does to a release that awaits a drop. -/
theorem awaiting_next (sound : Sound gather) (stepped : step gather action = some (after, events))
    {mesh : Mesh} {resources : Nat} {asleep : Bool}
    (found : gather.calls[call]? = some (.awaiting mesh resources asleep)) :
    (∃ next : Bool, after.calls[call]? = some (.awaiting mesh resources next) ∧
        (action.caller = some call → gather.registry mesh = some resources) ∧
        (next = true → asleep = true ∨ gather.registry mesh = some resources)) ∨
      (after.calls[call]? = some (.returning mesh) ∧
        gather.registry mesh ≠ some resources) := by
  obtain ⟨next, later, rfl | rfl, silent⟩ | ⟨new, moved, _, moves⟩ := step_call sound stepped found
  · exact .inl ⟨asleep, later, fun acted => absurd acted silent, .inl⟩
  · exact .inl ⟨false, later, fun acted => absurd acted silent, nofun⟩
  · cases moves with
    | drops other object old entry drained releases =>
      obtain impossible | impossible := releases <;> cases impossible
    | awaits other object entry => exact .inl ⟨true, moved, fun _ => entry, fun _ => .inr entry⟩
    | leaves other object gone => exact .inr ⟨moved, gone⟩
    | returns other old done => obtain impossible | impossible := done <;> cases impossible

/-- Every step brings a release nearer to its return, or keeps its helper. -/
theorem Helped.descends {rank helper : Nat} (helped : Helped gather call rank helper)
    (sound : Sound gather) (stepped : step gather action = some (after, events)) :
    after.calls[call]? = some .released ∨
      (∃ lower other, lower < rank ∧ Helped after call lower other) ∨
        (Helped after call rank helper ∧ action.caller ≠ some helper) := by
  have kept := sound.steps stepped
  have registers := step_registers stepped
  cases helped with
  | draining found works =>
    have fits := sound.fits _ (List.mem_of_getElem? found)
    obtain ⟨less, equal⟩ := step_work sound stepped fits.1 fits.2.1
    obtain ⟨next, later, _⟩ | ⟨later, _⟩ := draining_next sound stepped found
    · obtain same | lower := Nat.eq_or_lt_of_le less
      · obtain ⟨still, silent⟩ := equal same helper works
        exact .inr (.inr ⟨same ▸ .draining later still, silent⟩)
      · obtain ⟨other, helps⟩ := helped_draining later
        exact .inr (.inl ⟨_, other, by omega, helps⟩)
    · exact .inr (.inl ⟨1, call, by omega, .leaving (.inl later)⟩)
  | drained found done =>
    have fits := sound.fits _ (List.mem_of_getElem? found)
    obtain ⟨less, _⟩ := step_work sound stepped fits.1 fits.2.1
    obtain ⟨next, later, busy⟩ | ⟨later, _⟩ := draining_next sound stepped found
    · exact .inr (.inr ⟨.drained later (by omega), fun acted => busy acted (sound.idle done)⟩)
    · exact .inr (.inl ⟨1, call, by omega, .leaving (.inl later)⟩)
  | @awaiting mesh resources helper asleep found entry works =>
    have fits := sound.fits _ (List.mem_of_getElem? found)
    obtain ⟨less, equal⟩ := step_work sound stepped entry (fits.1.2 entry)
    obtain ⟨next, later, _, _⟩ | ⟨_, gone⟩ := awaiting_next sound stepped found
    · by_cases stays : after.registry mesh = some resources
      · obtain same | lower := Nat.eq_or_lt_of_le less
        · obtain ⟨still, silent⟩ := equal same helper works
          exact .inr (.inr ⟨same ▸ .awaiting later stays still, silent⟩)
        · obtain ⟨other, helps⟩ := helped_awaiting kept later stays
          exact .inr (.inl ⟨_, other, by omega, helps⟩)
      · obtain ⟨lower, other, less, helps⟩ := helped_gone kept later stays
        exact .inr (.inl ⟨lower, other, by omega, helps⟩)
    · exact absurd entry gone
  | @dropping mesh resources helper asleep sleeps found entry done drains =>
    have fits := sound.fits _ (List.mem_of_getElem? found)
    obtain ⟨less, _⟩ := step_work sound stepped entry (fits.1.2 entry)
    obtain ⟨next, later, _, _⟩ | ⟨_, gone⟩ := awaiting_next sound stepped found
    · by_cases stays : after.registry mesh = some resources
      · obtain ⟨sleeps, still, busy⟩ | ⟨_, seen⟩ := draining_next sound stepped drains
        · exact .inr (.inr ⟨.dropping later stays (by omega) still,
            fun acted => busy acted (sound.idle done)⟩)
        · have absent := (registers.drops _ seen).2
          rw [absent] at stays
          cases stays
      · obtain ⟨lower, other, less, helps⟩ := helped_gone kept later stays
        exact .inr (.inl ⟨lower, other, less, helps⟩)
    · exact absurd entry gone
  | unnotified found gone notifies =>
    have fits := sound.fits _ (List.mem_of_getElem? found)
    have lost := registers.renews _ _ fits.1.1 gone
    obtain ⟨next, later, _, _⟩ | ⟨later, _⟩ := awaiting_next sound stepped found
    · cases next with
      | false => exact .inr (.inl ⟨2, call, by omega, .notified later lost⟩)
      | true =>
        have different : call ≠ helper := by
          rintro rfl
          cases found.symm.trans notifies
        have silent : action.caller ≠ some helper := by
          intro acted
          have woken := step_notifies stepped acted notifies different
          rw [found, later] at woken
          cases woken
        obtain ⟨point, still, rfl | rfl, _⟩ | ⟨_, _, acted, _⟩ := step_call sound stepped notifies
        · exact .inr (.inr ⟨.unnotified later lost still, silent⟩)
        · exact .inr (.inr ⟨.unnotified later lost still, silent⟩)
        · exact absurd acted silent
    · exact .inr (.inl ⟨1, call, by omega, .leaving (.inr later)⟩)
  | notified found gone =>
    have fits := sound.fits _ (List.mem_of_getElem? found)
    have lost := registers.renews _ _ fits.1.1 gone
    obtain ⟨next, later, silent, sleeps⟩ | ⟨later, _⟩ := awaiting_next sound stepped found
    · cases next with
      | false => exact .inr (.inr ⟨.notified later lost, fun acted => gone (silent acted)⟩)
      | true =>
        obtain impossible | entry := sleeps rfl
        · cases impossible
        · exact absurd entry gone
    · exact .inr (.inl ⟨1, call, by omega, .leaving (.inr later)⟩)
  | leaving found =>
    obtain found | found := found
    · obtain ⟨next, later, rfl | rfl, silent⟩ | ⟨new, moved, _, moves⟩ := step_call sound stepped found
      · exact .inr (.inr ⟨.leaving (.inl later), silent⟩)
      · exact .inr (.inr ⟨.leaving (.inl later), silent⟩)
      · cases moves with
        | drops other object old entry drained releases =>
          obtain impossible | impossible := releases <;> cases impossible
        | returns other old done => exact .inl moved
    · obtain ⟨next, later, rfl | rfl, silent⟩ | ⟨new, moved, _, moves⟩ := step_call sound stepped found
      · exact .inr (.inr ⟨.leaving (.inr later), silent⟩)
      · exact .inr (.inr ⟨.leaving (.inr later), silent⟩)
      · cases moves with
        | drops other object old entry drained releases =>
          obtain impossible | impossible := releases <;> cases impossible
        | returns other old done => exact .inl moved

/-- A release that has been called moves by its own section, and is helped from then on. -/
theorem called_descends {mesh : Mesh} (sound : Sound gather)
    (stepped : step gather action = some (after, events))
    (found : gather.calls[call]? = some (.called .release mesh)) :
    (∃ rank helper, Helped after call rank helper) ∨
      (after.calls[call]? = some (.called .release mesh) ∧ action.caller ≠ some call) := by
  have kept := sound.steps stepped
  obtain ⟨next, later, rfl | rfl, silent⟩ | ⟨new, moved, _, moves⟩ := step_call sound stepped found
  · exact .inr ⟨later, silent⟩
  · exact .inr ⟨later, silent⟩
  · left
    cases moves with
    | refuses request other different => exact absurd rfl different
    | records other absent => exact ⟨1, call, .leaving (.inr moved)⟩
    | joins other resources entry =>
      by_cases stays : after.registry mesh = some resources
      · obtain ⟨helper, helps⟩ := helped_awaiting kept moved stays
        exact ⟨_, helper, helps⟩
      · obtain ⟨rank, helper, _, helps⟩ := helped_gone kept moved stays
        exact ⟨rank, helper, helps⟩
    | closes other resources entry =>
      obtain ⟨helper, helps⟩ := helped_draining moved
      exact ⟨_, helper, helps⟩
    | drops other resources old entry drained releases =>
      exact ⟨1, call, .leaving (.inl moved)⟩
    | returns other old done => obtain impossible | impossible := done <;> cases impossible

/-- The steps of the calls, without what is seen of them. -/
def Steps (gather : Gather Mesh) (action : Action Mesh) (after : Gather Mesh) : Prop :=
  ∃ events, step gather action = some (after, events)

/-- A call of a release comes to wait or to return. -/
def enters (call : Nat) (mesh : Mesh) : Behaviour.Ranking (Steps : Gather Mesh → Action Mesh → Gather Mesh → Prop) Able
    Action.caller Sound fun gather => ∃ rank helper, Helped gather call rank helper where
  Helped := fun gather rank helper =>
    rank = 0 ∧ helper = call ∧ gather.calls[call]? = some (.called .release mesh)
  able := by
    rintro gather rank helper _ ⟨_, rfl, found⟩
    exact ⟨_, found, rfl⟩
  descends := by
    rintro gather action after rank helper sound ⟨events, stepped⟩ ⟨rfl, rfl, found⟩
    obtain helped | ⟨later, silent⟩ := called_descends sound stepped found
    · exact .inl helped
    · exact .inr (.inr ⟨⟨rfl, rfl, later⟩, silent⟩)

/-- A release that waits comes to return. -/
def leaves (call : Nat) : Behaviour.Ranking (Steps : Gather Mesh → Action Mesh → Gather Mesh → Prop) Able Action.caller Sound
    fun gather => gather.calls[call]? = some .released where
  Helped := fun gather rank helper => Helped gather call rank helper
  able := fun _ _ _ sound helped => helped.able sound
  descends := by
    rintro gather action after rank helper sound ⟨events, stepped⟩ helped
    exact helped.descends sound stepped

/-- Under fair scheduling every release returns. -/
theorem release_returns (behaviour : Behaviour (Steps : Gather Mesh → Action Mesh → Gather Mesh → Prop))
    (initial : behaviour.states 0 = .initial)
    (fair : ∀ caller, behaviour.FairTo Able Action.caller caller) {time : Nat} {mesh : Mesh}
    (called : (behaviour.states time).calls[call]? = some (.called .release mesh)) :
    ∃ later, time ≤ later ∧ (behaviour.states later).calls[call]? = some .released := by
  have sound (later : Nat) : Sound (behaviour.states later) := by
    refine behaviour.invariant 0 (initial ▸ sound_initial) ?_ later (Nat.zero_le later)
    rintro state action next sound ⟨events, stepped⟩
    exact sound.steps stepped
  obtain ⟨entered, since, rank, helper, helped⟩ := (enters call mesh).eventually behaviour fair
    (fun later _ => sound later) ⟨rfl, rfl, called⟩
  obtain ⟨later, after, released⟩ := (leaves call).eventually behaviour fair
    (fun later _ => sound later) helped
  exact ⟨later, Nat.le_trans since after, released⟩

/-- In a run of which every step meets the condition the resources of a mesh have the
claimed lifetimes, and under fair scheduling every release returns.

Proof: one section moves one call, and its event appends to the history. What a release has
seen is stated for each place where it may wait; a mesh that was dropped stays recorded as
released until a reserve takes it out, for no reserve fails on it. The way of a release is
ranked by the work that operations have left on its object. -/
theorem resources_live :
    (∀ trace gather, Run (TakesWhere step Supplied) (.initial : Gather Mesh) trace gather →
      Lifetime trace gather) ∧
    ∀ behaviour : Behaviour (Steps : Gather Mesh → Action Mesh → Gather Mesh → Prop),
      behaviour.states 0 = .initial →
      (∀ caller, behaviour.FairTo Able Action.caller caller) →
      ∀ (time call : Nat) (mesh : Mesh), (behaviour.states time).calls[call]? = some (.called .release mesh) →
        ∃ later, time ≤ later ∧ (behaviour.states later).calls[call]? = some .released := by
  constructor
  · intro trace gather run
    exact (kept_of_run run).lifetime
  · intro behaviour initial fair time call mesh called
    exact release_returns behaviour initial fair called

end Steps

/-! ## An early release, and a reserve that fails -/

/-- The states of a release of a mesh that was never used. -/
def emptyRelease : Nat → Gather Unit
  | 0 => .initial
  | 1 => { Gather.initial with calls := [.called .release ()] }
  | 2 => { Gather.initial with released := fun _ => true, calls := [.returning ()] }
  | _ => { Gather.initial with released := fun _ => true, calls := [.released] }

/-- The release runs, and nothing else. -/
def emptyBehaviour : Behaviour (Steps : Gather Unit → Action Unit → Gather Unit → Prop) where
  states := emptyRelease
  taken
    | 0 => some (.call .release ())
    | 1 | 2 => some (.advance 0 true)
    | _ => none
  follows
    | 0 => ⟨_, rfl⟩
    | 1 => by
      refine ⟨[.dropped ()], ?_⟩
      have always : Function.update (fun _ : Unit => false) () true = fun _ => true := by
        funext mesh
        rfl
      simp [step, proceed, release, settle, emptyRelease, Gather.initial, always]
    | 2 => ⟨_, rfl⟩
    | _ + 3 => rfl

/-- Nobody is able to act once the release has returned. -/
theorem emptyBehaviour_fair (caller : Nat) :
    emptyBehaviour.FairTo Able Action.caller caller := by
  intro time able
  exfalso
  obtain ⟨point, found, proceeds⟩ := able (time + 3) (by omega)
  have ended : (emptyBehaviour.states (time + 3)).calls = [.released] := rfl
  rw [ended] at found
  cases caller with
  | zero =>
    cases found
    cases proceeds
  | succ caller => cases found

instance (gather : Gather Unit) (action : Action Unit) : Decidable (Supplied gather action) := by
  unfold Supplied
  split
  · next index =>
    refine decidable_of_iff (gather.calls[index]? = some (.called .reserve ()) →
      gather.registry () = none → gather.released () = false) ?_
    constructor
    · exact fun supplied mesh => supplied
    · exact fun supplied => supplied ()
  · infer_instance

/-- A mesh is reserved, and released while an operation is counted. -/
def lateRelease : List (Action Unit) :=
  [.call .reserve (), .advance 0 true, .call .operation (), .advance 1 true, .advance 1 true,
    .call .release (), .advance 2 true, .advance 1 true, .advance 1 true, .advance 2 true,
    .advance 2 true]

/-- The release returns after the operation is over; a release of a mesh that was never used
returns too. -/
theorem late_release_waits :
    (∃ gather, Lifetime [.reserved (), .counted 1 (), .began 2 (), .uncounted 1, .dropped (),
      .returned 2 ()] (gather : Gather Unit)) ∧
    ∃ later, 1 ≤ later ∧ (emptyBehaviour.states later).calls[0]? = some .released := by
  constructor
  · have seen : (execute (guarded step Supplied) .initial lateRelease).map Prod.snd =
        some [.reserved (), .counted 1 (), .began 2 (), .uncounted 1, .dropped (),
          .returned 2 ()] := by
      decide +kernel
    obtain ⟨⟨gather, trace⟩, executed, rfl⟩ := Option.map_eq_some_iff.mp seen
    have run := (Run.Run.execute .start executed).mono fun _ _ _ => guarded_takes
    exact ⟨gather, resources_live.1 _ gather run⟩
  · exact resources_live.2 emptyBehaviour rfl emptyBehaviour_fair 1 0 () rfl

/-- After a release a reserve fails for want of memory, and an operation is called. -/
def failedReserve : List (Action Unit) :=
  [.call .release (), .advance 0 true, .advance 0 true, .call .reserve (), .advance 1 false,
    .call .operation (), .advance 2 true]

/-- The operation gets resources of a released mesh that no reserve has reserved again. -/
theorem failed_reserve_reopens :
    ¬ ∀ trace gather, Run (Takes step) (.initial : Gather Unit) trace gather →
      Lifetime trace gather := by
  intro claimed
  have seen : (execute step .initial failedReserve).map Prod.snd =
      some [.began 0 (), .dropped (), .returned 0 (), .counted 2 ()] := by
    decide +kernel
  obtain ⟨⟨gather, trace⟩, executed, rfl⟩ := Option.map_eq_some_iff.mp seen
  have lifetime := claimed _ gather (Run.Run.execute .start executed)
  have reserved := lifetime.closed [.began 0 ()] [.returned 0 ()] [] () 2 rfl
  simp at reserved

end KvCache.GatherResources
