import KvCache.Gather.Registry

/-!
# What every section of a call keeps

An object counts the operations that hold it; its mutex is owned by at most one of them;
it is being released exactly while one release drains it. The registry still has the
object of an operation and of a drain. A call sleeps only while it has something to wait
for, or a notification is still to come.
-/

namespace KvCache.GatherResources

open Run Tally

variable {Mesh : Type} {gather : Gather Mesh}

/-! ## Weights -/

/-- The mesh and the object of an operation in progress. -/
def Point.place : Point Mesh → Option (Mesh × Nat)
  | .queued mesh resources | .holding mesh resources | .finishing mesh resources =>
    some (mesh, resources)
  | _ => none

/-- One for an operation in progress on an object. -/
def Point.active (resources : Nat) : Point Mesh → Nat
  | .queued _ other | .holding _ other | .finishing _ other =>
    if other = resources then 1 else 0
  | _ => 0

/-- One for the owner of the mutex of an object. -/
def Point.owns (resources : Nat) : Point Mesh → Nat
  | .holding _ other => if other = resources then 1 else 0
  | _ => 0

/-- One for a release that drains an object. -/
def Point.drains (resources : Nat) : Point Mesh → Nat
  | .draining _ other _ => if other = resources then 1 else 0
  | _ => 0

theorem Point.active_of_place {point : Point Mesh} {mesh : Mesh} {resources : Nat}
    (placed : point.place = some (mesh, resources)) : point.active resources = 1 := by
  cases point <;> simp_all [Point.place, Point.active]

/-- Waking a call changes no weight. -/
theorem Point.woken_weights (resources : Nat) (point : Point Mesh) :
    point.woken.active resources = point.active resources ∧
      point.woken.owns resources = point.owns resources ∧
      point.woken.drains resources = point.drains resources := by
  cases point <;> exact ⟨rfl, rfl, rfl⟩

theorem Point.woken_place (point : Point Mesh) : point.woken.place = point.place := by
  cases point <;> rfl

/-- A member of the calls is part of a total. -/
theorem weight_of_mem (weight : Point Mesh → Nat) {calls : List (Point Mesh)}
    {point : Point Mesh} (member : point ∈ calls) : weight point ≤ total weight calls := by
  obtain ⟨index, found⟩ := List.getElem?_of_mem member
  exact weight_le_total weight found

/-! ## The invariant -/

/-- What holds of a call where it is. -/
def Fits (gather : Gather Mesh) : Point Mesh → Prop
  | .queued mesh resources | .holding mesh resources | .finishing mesh resources =>
    gather.registry mesh = some resources
  | .draining mesh resources asleep =>
    gather.registry mesh = some resources ∧ (gather.objects resources).releasing = true ∧
      (asleep = true → (gather.objects resources).activeOperations ≠ 0)
  | .awaiting mesh resources asleep =>
    (resources < gather.made ∧
      (gather.registry mesh = some resources →
        (gather.objects resources).releasing = true)) ∧
      (asleep = true → gather.registry mesh = some resources ∨
        ∃ other, .notifying other ∈ gather.calls)
  | _ => True

/-- What every step keeps. -/
structure Sound (gather : Gather Mesh) : Prop where
  below : ∀ mesh resources, gather.registry mesh = some resources → resources < gather.made
  own : ∀ mesh other resources, gather.registry mesh = some resources →
    gather.registry other = some resources → mesh = other
  fits : ∀ point ∈ gather.calls, Fits gather point
  counts : ∀ resources,
    (gather.objects resources).activeOperations = total (Point.active resources) gather.calls
  mutex : ∀ resources, total (Point.owns resources) gather.calls =
    if (gather.objects resources).operationMutex then 1 else 0
  drainer : ∀ mesh resources, gather.registry mesh = some resources →
    total (Point.drains resources) gather.calls =
      if (gather.objects resources).releasing then 1 else 0

theorem sound_initial : Sound (Gather.initial : Gather Mesh) where
  below := by simp [Gather.initial]
  own := by simp [Gather.initial]
  fits := by simp [Gather.initial]
  counts := fun _ => rfl
  mutex := fun _ => rfl
  drainer := by simp [Gather.initial]

/-- The registry has the object of an operation in progress. -/
theorem Sound.placed (sound : Sound gather) {point : Point Mesh} (member : point ∈ gather.calls)
    {mesh : Mesh} {resources : Nat} (placed : point.place = some (mesh, resources)) :
    gather.registry mesh = some resources := by
  have fits := sound.fits point member
  cases point <;> simp_all [Point.place, Fits]

/-- No call is at an object that has not been made. -/
theorem Sound.fresh (sound : Sound gather) :
    total (Point.active gather.made) gather.calls = 0 ∧
      total (Point.owns gather.made) gather.calls = 0 ∧
      total (Point.drains gather.made) gather.calls = 0 := by
  have none : ∀ point ∈ gather.calls, point.active gather.made = 0 ∧
      point.owns gather.made = 0 ∧ point.drains gather.made = 0 := by
    intro point member
    have fits := sound.fits point member
    cases point with
    | queued mesh resources =>
      have under := sound.below mesh resources fits
      simp only [Point.active, Point.owns, Point.drains]
      exact ⟨if_neg (by omega), trivial, trivial⟩
    | holding mesh resources =>
      have under := sound.below mesh resources fits
      simp only [Point.active, Point.owns, Point.drains]
      exact ⟨if_neg (by omega), if_neg (by omega), trivial⟩
    | finishing mesh resources =>
      have under := sound.below mesh resources fits
      simp only [Point.active, Point.owns, Point.drains]
      exact ⟨if_neg (by omega), trivial, trivial⟩
    | draining mesh resources asleep =>
      have under := sound.below mesh resources fits.1
      simp only [Point.active, Point.owns, Point.drains]
      exact ⟨trivial, trivial, if_neg (by omega)⟩
    | _ => exact ⟨rfl, rfl, rfl⟩
  refine ⟨?_, ?_, ?_⟩
  all_goals
    by_contra positive
    obtain ⟨index, point, found, weighs⟩ := weight_of_total (Nat.pos_of_ne_zero positive)
    have member := List.mem_of_getElem? found
    have nothing := none point member
    omega

/-! ## Replacing one call -/

/-- A notification that is still to come stays, or nobody sleeps for it. -/
theorem Fits.of_set {index : Nat} {old new point : Point Mesh}
    (fits : Fits gather point) (found : gather.calls[index]? = some old)
    (kept : (∀ mesh, old = .notifying mesh → new = old) ∨
      ∀ mesh resources, point ≠ .awaiting mesh resources true) :
    Fits { gather with calls := gather.calls.set index new } point := by
  cases point with
  | awaiting mesh resources asleep =>
    obtain ⟨under, waits⟩ := fits
    constructor
    · exact under
    · rintro rfl
      obtain same | ⟨other, notifies⟩ := waits rfl
      · exact .inl same
      · right
        use other
        obtain kept | nobody := kept
        · obtain ⟨place, at_place⟩ := List.getElem?_of_mem notifies
          have short := (List.getElem?_eq_some_iff.mp found).1
          by_cases here : index = place
          · have same : old = .notifying other :=
              Option.some.inj (found.symm.trans (here ▸ at_place))
            have stays : new = .notifying other := (kept other same).trans same
            exact stays ▸ List.mem_set short new
          · have untouched : (gather.calls.set index new)[place]? = some (.notifying other) := by
              rw [List.getElem?_set_ne here]
              exact at_place
            exact List.mem_of_getElem? untouched
        · exact absurd rfl (nobody mesh resources)
  | _ => exact fits

/-- A call moves, with the same weights, while registry and objects stay. -/
theorem Sound.replace (sound : Sound gather) {index : Nat} {old new : Point Mesh}
    (found : gather.calls[index]? = some old)
    (weights : ∀ resources, new.active resources = old.active resources ∧
      new.owns resources = old.owns resources ∧ new.drains resources = old.drains resources)
    (fits : Fits gather new)
    (kept : (∀ mesh, old = .notifying mesh → new = old) ∨
      ((∀ mesh resources, .awaiting mesh resources true ∉ gather.calls) ∧
        ∀ mesh resources, new ≠ .awaiting mesh resources true)) :
    Sound { gather with calls := gather.calls.set index new } where
  below := sound.below
  own := sound.own
  fits := by
    intro point member
    obtain before | rfl := List.mem_or_eq_of_mem_set member
    · refine (sound.fits point before).of_set found ?_
      obtain kept | ⟨nobody, _⟩ := kept
      · exact .inl kept
      · exact .inr fun mesh resources same => nobody mesh resources (same ▸ before)
    · refine fits.of_set found ?_
      obtain kept | ⟨_, awake⟩ := kept
      · exact .inl kept
      · exact .inr awake
  counts := by
    intro resources
    have changed := total_set (Point.active resources) found new
    have same := (weights resources).1
    have counted := sound.counts resources
    simp only
    omega
  mutex := by
    intro resources
    have changed := total_set (Point.owns resources) found new
    have same := (weights resources).2.1
    rw [← sound.mutex resources]
    simp only
    omega
  drainer := by
    intro mesh resources entry
    have changed := total_set (Point.drains resources) found new
    have same := (weights resources).2.2
    rw [← sound.drainer mesh resources entry]
    simp only
    omega

/-- The released meshes are not part of the invariant. -/
theorem Sound.recorded (sound : Sound gather) (released : Mesh → Bool) :
    Sound { gather with released } where
  below := sound.below
  own := sound.own
  fits := by
    intro point member
    have fits := sound.fits point member
    cases point <;> exact fits
  counts := sound.counts
  mutex := sound.mutex
  drainer := sound.drainer

/-- A new call. -/
theorem Sound.calls (sound : Sound gather) (request : Request) (mesh : Mesh) :
    Sound { gather with calls := gather.calls ++ [.called request mesh] } where
  below := sound.below
  own := sound.own
  fits := by
    intro point member
    obtain before | new := List.mem_append.mp member
    · have fits := sound.fits point before
      cases point with
      | awaiting mesh resources asleep =>
        obtain ⟨under, waits⟩ := fits
        constructor
        · exact under
        · intro sleeping
          obtain same | ⟨other, notifies⟩ := waits sleeping
          · exact .inl same
          · exact .inr ⟨other, List.mem_append_left _ notifies⟩
      | _ => exact fits
    · rw [List.mem_singleton.mp new]
      trivial
  counts := by
    intro resources
    simp [total, Point.active, sound.counts]
  mutex := by
    intro resources
    have same := sound.mutex resources
    simpa [Point.owns] using same
  drainer := by
    intro mesh resources entry
    have same := sound.drainer mesh resources entry
    simpa [Point.drains] using same

/-- A wakeup. -/
theorem Sound.wakes (sound : Sound gather) {index : Nat} {point : Point Mesh}
    (found : gather.calls[index]? = some point) :
    Sound { gather with calls := gather.calls.set index point.woken } := by
  have fits := sound.fits point (List.mem_of_getElem? found)
  refine sound.replace found (fun resources => point.woken_weights resources) ?_ (.inl ?_)
  · cases point with
    | draining mesh resources asleep => exact ⟨fits.1, fits.2.1, by simp⟩
    | awaiting mesh resources asleep => exact ⟨fits.1, by simp⟩
    | _ => exact fits
  · rintro mesh rfl
    rfl

/-- After a notification nobody sleeps. -/
theorem awake_after_notification {point : Point Mesh}
    (member : point ∈ (notifyAll gather).calls) : point.woken = point := by
  obtain ⟨before, _, rfl⟩ := List.mem_map.mp member
  cases before <;> rfl

theorem Sound.notified (sound : Sound gather) : Sound (notifyAll gather) where
  below := sound.below
  own := sound.own
  fits := by
    intro point member
    obtain ⟨before, listed, rfl⟩ := List.mem_map.mp member
    have fits := sound.fits before listed
    cases before with
    | draining mesh resources asleep => exact ⟨fits.1, fits.2.1, by simp⟩
    | awaiting mesh resources asleep => exact ⟨fits.1, by simp⟩
    | _ => exact fits
  counts := by
    intro resources
    rw [notifyAll, total_map fun point => (point.woken_weights resources).1]
    exact sound.counts resources
  mutex := by
    intro resources
    rw [notifyAll, total_map fun point => (point.woken_weights resources).2.1]
    exact sound.mutex resources
  drainer := by
    intro mesh resources entry
    rw [notifyAll, total_map fun point => (point.woken_weights resources).2.2]
    exact sound.drainer mesh resources entry

/-! ## Changing an object -/

/-- An object changes together with the call that changes it. Its number and its mutex
follow the call; it stays in release, and it keeps an operation for the drains that sleep. -/
theorem Sound.stored (sound : Sound gather) {index : Nat} {old new : Point Mesh}
    (found : gather.calls[index]? = some old) {resources : Nat} {object : Resources}
    (idle : ∀ mesh, old ≠ .notifying mesh)
    (fits : Fits (store resources object gather) new)
    (elsewhere : ∀ other, other ≠ resources → new.active other = old.active other ∧
      new.owns other = old.owns other ∧ new.drains other = old.drains other)
    (counts : object.activeOperations + old.active resources =
      (gather.objects resources).activeOperations + new.active resources)
    (mutex : (if object.operationMutex then 1 else 0) + old.owns resources =
      (if (gather.objects resources).operationMutex then 1 else 0) + new.owns resources)
    (drains : (if object.releasing then 1 else 0) + old.drains resources =
      (if (gather.objects resources).releasing then 1 else 0) + new.drains resources)
    (stays : (gather.objects resources).releasing = true → object.releasing = true)
    (sleeps : object.activeOperations ≠ 0 ∨
      ∀ mesh, .draining mesh resources true ∉ gather.calls) :
    Sound { store resources object gather with calls := gather.calls.set index new } where
  below := sound.below
  own := sound.own
  fits := by
    intro point member
    have kept : ∀ mesh, old = .notifying mesh → new = old := fun mesh same => absurd same (idle mesh)
    obtain before | rfl := List.mem_or_eq_of_mem_set member
    · have stands : Fits (store resources object gather) point := by
        have fits := sound.fits point before
        cases point with
        | draining mesh other asleep =>
          obtain ⟨entry, releasing, waits⟩ := fits
          by_cases here : other = resources
          · subst here
            simp only [Fits, store, Function.update_self]
            refine ⟨entry, stays releasing, ?_⟩
            rintro rfl
            obtain counted | nobody := sleeps
            · exact counted
            · exact absurd before (nobody mesh)
          · simp only [Fits, store, Function.update_of_ne here]
            exact ⟨entry, releasing, waits⟩
        | awaiting mesh other asleep =>
          obtain ⟨⟨under, closing⟩, waits⟩ := fits
          by_cases here : other = resources
          · subst here
            simp only [Fits, store, Function.update_self]
            exact ⟨⟨under, fun entry => stays (closing entry)⟩, waits⟩
          · simp only [Fits, store, Function.update_of_ne here]
            exact ⟨⟨under, closing⟩, waits⟩
        | _ => exact fits
      exact stands.of_set found (.inl kept)
    · exact fits.of_set found (.inl kept)
  counts := by
    intro other
    have changed := total_set (Point.active other) found new
    have counted := sound.counts other
    by_cases here : other = resources
    · subst here
      simp only [store, Function.update_self]
      omega
    · have same := (elsewhere other here).1
      simp only [store, Function.update_of_ne here]
      omega
  mutex := by
    intro other
    have changed := total_set (Point.owns other) found new
    have owned := sound.mutex other
    by_cases here : other = resources
    · subst here
      simp only [store, Function.update_self]
      omega
    · have same := (elsewhere other here).2.1
      simp only [store, Function.update_of_ne here]
      omega
  drainer := by
    intro mesh other entry
    have changed := total_set (Point.drains other) found new
    have drained := sound.drainer mesh other entry
    by_cases here : other = resources
    · subst here
      simp only [store, Function.update_self]
      omega
    · have same := (elsewhere other here).2.2
      simp only [store, Function.update_of_ne here]
      omega

/-! ## The sections of a call -/

/-- An operation takes the mutex of its object. -/
theorem Sound.locks (sound : Sound gather) {index : Nat} {mesh : Mesh} {resources : Nat}
    (found : gather.calls[index]? = some (.queued mesh resources))
    (free : (gather.objects resources).operationMutex = false) :
    Sound { store resources { gather.objects resources with operationMutex := true } gather with
      calls := gather.calls.set index (.holding mesh resources) } := by
  have one : 0 < (gather.objects resources).activeOperations := by
    rw [sound.counts]
    have part := weight_le_total (Point.active resources) found
    simp only [Point.active, if_true] at part
    omega
  apply sound.stored found
  · intro other impossible
    cases impossible
  · exact sound.fits _ (List.mem_of_getElem? found)
  · intro other different
    refine ⟨rfl, ?_, rfl⟩
    exact if_neg different.symm
  · rfl
  · simp [Point.owns, free]
  · rfl
  · exact id
  · exact .inl one.ne'

/-- An operation gives the mutex of its object back. -/
theorem Sound.unlocks (sound : Sound gather) {index : Nat} {mesh : Mesh} {resources : Nat}
    (found : gather.calls[index]? = some (.holding mesh resources)) :
    Sound { store resources { gather.objects resources with operationMutex := false } gather with
      calls := gather.calls.set index (.finishing mesh resources) } := by
  have one : 0 < (gather.objects resources).activeOperations := by
    rw [sound.counts]
    have part := weight_le_total (Point.active resources) found
    simp only [Point.active, if_true] at part
    omega
  have owned : (gather.objects resources).operationMutex = true := by
    have part := weight_le_total (Point.owns resources) found
    rw [sound.mutex] at part
    by_contra free
    simp [Point.owns, free] at part
  apply sound.stored found
  · intro other impossible
    cases impossible
  · exact sound.fits _ (List.mem_of_getElem? found)
  · intro other different
    refine ⟨rfl, ?_, rfl⟩
    exact (if_neg different.symm).symm
  · rfl
  · simp [Point.owns, owned]
  · rfl
  · exact id
  · exact .inl one.ne'

/-- An operation is uncounted, and everybody is woken. -/
theorem Sound.finishes (sound : Sound gather) {index : Nat} {mesh : Mesh} {resources : Nat}
    (found : gather.calls[index]? = some (.finishing mesh resources)) :
    Sound { finish resources gather with
      calls := (finish resources gather).calls.set index .finished } := by
  have still : (notifyAll gather).calls[index]? = some (.finishing mesh resources) := by
    simp [notifyAll, found, Point.woken]
  have one : 0 < (gather.objects resources).activeOperations := by
    rw [sound.counts]
    have part := weight_le_total (Point.active resources) found
    simp only [Point.active, if_true] at part
    omega
  apply sound.notified.stored still
  · intro other impossible
    cases impossible
  · trivial
  · intro other different
    refine ⟨?_, rfl, rfl⟩
    exact (if_neg different.symm).symm
  · simp only [Point.active, if_true, notifyAll]
    omega
  · rfl
  · rfl
  · exact id
  · right
    intro other member
    have woken := awake_after_notification member
    simp [Point.woken] at woken

/-- A release finds an object that nobody releases yet. -/
theorem Sound.closes (sound : Sound gather) {index : Nat} {mesh : Mesh} {resources : Nat}
    (found : gather.calls[index]? = some (.called .release mesh))
    (entry : gather.registry mesh = some resources)
    (idle : (gather.objects resources).releasing = false) :
    Sound { store resources { gather.objects resources with releasing := true } gather with
      calls := gather.calls.set index (.draining mesh resources false) } := by
  apply sound.stored found
  · intro other impossible
    cases impossible
  · refine ⟨entry, ?_, by simp⟩
    simp [store]
  · intro other different
    refine ⟨rfl, rfl, ?_⟩
    exact if_neg different.symm
  · rfl
  · rfl
  · simp [Point.drains, idle]
  · exact fun _ => rfl
  · right
    intro other member
    have fits := (sound.fits _ member).2.1
    simp [idle] at fits

/-! ## The sections of a release and of a new operation -/

/-- The state after a section of the call at `index`. -/
abbrev settled (index : Nat) (effect : Effect Mesh) : Gather Mesh := (settle index effect).1

/-- A release awaits the drop of an object by another one. -/
theorem Sound.awaits (sound : Sound gather) {index : Nat} {old : Point Mesh} {mesh : Mesh}
    {resources : Nat} (found : gather.calls[index]? = some old)
    (idle : ∀ other, old.active other = 0 ∧ old.owns other = 0 ∧ old.drains other = 0)
    (silent : ∀ other, old ≠ .notifying other) (known : resources < gather.made)
    (closing : gather.registry mesh = some resources →
      (gather.objects resources).releasing = true) :
    Sound (settled index (await mesh resources gather)) := by
  unfold await
  split
  · next entry =>
    apply sound.replace found
    · exact fun other => ⟨(idle other).1.symm, (idle other).2.1.symm, (idle other).2.2.symm⟩
    · exact ⟨⟨known, closing⟩, fun _ => .inl entry⟩
    · left
      intro other same
      exact absurd same (silent other)
  · apply sound.replace found
    · exact fun other => ⟨(idle other).1.symm, (idle other).2.1.symm, (idle other).2.2.symm⟩
    · trivial
    · left
      intro other same
      exact absurd same (silent other)

section Entries

variable [DecidableEq Mesh]

/-- An object is allocated for a mesh without one. -/
theorem Sound.emplaced (sound : Sound gather) {mesh : Mesh}
    (absent : gather.registry mesh = none) : Sound (emplace mesh gather) where
  below := by
    intro other resources entry
    simp only [emplace, Function.update_apply] at entry ⊢
    split at entry
    · have same := Option.some.inj entry
      omega
    · have under := sound.below other resources entry
      omega
  own := by
    intro one other resources first second
    simp only [emplace, Function.update_apply] at first second
    split at first
    · next here =>
      split at second
      · next also => exact here.trans also.symm
      · have under := sound.below other resources second
        have same := Option.some.inj first
        omega
    · split at second
      · have under := sound.below one resources first
        have same := Option.some.inj second
        omega
      · exact sound.own one other resources first second
  fits := by
    intro point member
    have fits := sound.fits point member
    have elsewhere {other : Mesh} {resources : Nat} (entry : gather.registry other = some resources) :
        (emplace mesh gather).registry other = some resources := by
      have different : other ≠ mesh := by
        rintro rfl
        simp [absent] at entry
      simpa [emplace, Function.update_apply, different] using entry
    cases point with
    | queued other resources => exact elsewhere fits
    | holding other resources => exact elsewhere fits
    | finishing other resources => exact elsewhere fits
    | draining other resources asleep =>
      have old : resources ≠ gather.made := (sound.below other resources fits.1).ne
      refine ⟨elsewhere fits.1, ?_⟩
      simpa [emplace, Function.update_apply, old] using fits.2
    | awaiting other resources asleep =>
      obtain ⟨⟨under, closing⟩, waits⟩ := fits
      refine ⟨⟨Nat.lt_succ_of_lt under, fun entry => ?_⟩, ?_⟩
      · simp only [emplace, Function.update_apply] at entry ⊢
        split at entry
        · have new := Option.some.inj entry
          omega
        · simpa [under.ne] using closing entry
      · intro sleeping
        obtain same | notified := waits sleeping
        · exact .inl (elsewhere same)
        · exact .inr notified
    | _ => trivial
  counts := by
    intro resources
    have counted := sound.counts resources
    simp only [emplace, Function.update_apply]
    split
    · next new =>
      rw [new, sound.fresh.1]
      rfl
    · exact counted
  mutex := by
    intro resources
    have owned := sound.mutex resources
    simp only [emplace, Function.update_apply]
    split
    · next new =>
      rw [new, sound.fresh.2.1]
      rfl
    · exact owned
  drainer := by
    intro other resources entry
    simp only [emplace, Function.update_apply] at entry ⊢
    split at entry
    · have new : resources = gather.made := (Option.some.inj entry).symm
      rw [new, sound.fresh.2.2]
      simp [Resources.make]
    · have old : resources ≠ gather.made := (sound.below other resources entry).ne
      simpa [old] using sound.drainer other resources entry

/-- An operation is counted. -/
theorem Sound.operates (sound : Sound gather) {index : Nat} {mesh : Mesh} {allocates : Bool}
    (found : gather.calls[index]? = some (.called .operation mesh)) {resources : Nat}
    {counted : Gather Mesh} (counts : count mesh allocates gather = some (resources, counted)) :
    Sound { counted with calls := counted.calls.set index (.queued mesh resources) } := by
  obtain ⟨there, before, same, entry, idle, rfl⟩ : ∃ there : Gather Mesh, Sound there ∧
      there.calls = gather.calls ∧ there.registry mesh = some resources ∧
      (there.objects resources).releasing = false ∧ counted = store resources
        { there.objects resources with
          activeOperations := (there.objects resources).activeOperations + 1 } there := by
    unfold count find at counts
    split at counts
    · cases counts
    · cases entry : gather.registry mesh with
      | some old =>
        simp only [entry, Option.bind_some] at counts
        split at counts
        · cases counts
        · next idle =>
          obtain ⟨rfl, rfl⟩ := Prod.mk.inj (Option.some.inj counts)
          exact ⟨gather, sound, rfl, entry, by simpa using idle, rfl⟩
      | none =>
        simp only [entry] at counts
        cases allocates with
        | false => cases counts
        | true =>
          simp only [if_true, Option.bind_some] at counts
          split at counts
          · cases counts
          · next idle =>
            obtain ⟨rfl, rfl⟩ := Prod.mk.inj (Option.some.inj counts)
            refine ⟨emplace mesh gather, sound.emplaced entry, rfl, ?_, by simpa using idle, rfl⟩
            simp [emplace]
  have called : there.calls[index]? = some (.called .operation mesh) := same ▸ found
  apply before.stored called
  · intro other impossible
    cases impossible
  · exact entry
  · intro other different
    refine ⟨?_, rfl, rfl⟩
    exact if_neg different.symm
  · simp [Point.active]
  · rfl
  · rfl
  · exact id
  · exact .inl (Nat.succ_ne_zero _)

/-- A drained object is dropped by its drain. -/
theorem Sound.drops (sound : Sound gather) {index : Nat} {mesh : Mesh} {resources : Nat}
    {asleep : Bool} (found : gather.calls[index]? = some (.draining mesh resources asleep))
    (drained : (gather.objects resources).activeOperations = 0) :
    Sound { drop mesh gather with calls := gather.calls.set index (.notifying mesh) } := by
  have entry := (sound.fits _ (List.mem_of_getElem? found)).1
  have releasing := (sound.fits _ (List.mem_of_getElem? found)).2.1
  have alone : total (Point.drains resources) (gather.calls.set index (.notifying mesh)) = 0 := by
    have changed := total_set (Point.drains resources) found (.notifying mesh)
    have one := sound.drainer mesh resources entry
    simp only [Point.drains, if_true, releasing] at changed one
    omega
  have nobody : total (Point.active resources) gather.calls = 0 :=
    (sound.counts resources).symm.trans drained
  have elsewhere {other : Mesh} {object : Nat} (held : gather.registry other = some object)
      (different : object ≠ resources) : (drop mesh gather).registry other = some object := by
    have apart : other ≠ mesh := by
      rintro rfl
      exact different (Option.some.inj (held.symm.trans entry))
    simpa [drop, Function.update_apply, apart] using held
  have remains {other : Mesh} {object : Nat} (held : (drop mesh gather).registry other = some object) :
      gather.registry other = some object := by
    simp only [drop, Function.update_apply] at held
    split at held
    · cases held
    · exact held
  constructor
  · intro other object held
    exact sound.below other object (remains held)
  · intro one other object first second
    exact sound.own one other object (remains first) (remains second)
  · intro point member
    have share := weight_of_mem (Point.drains resources) member
    obtain before | rfl := List.mem_or_eq_of_mem_set member
    · have fits := sound.fits point before
      have idle := weight_of_mem (Point.active resources) before
      cases point with
      | queued other object =>
        refine elsewhere fits fun same => ?_
        simp [Point.active, same, nobody] at idle
      | holding other object =>
        refine elsewhere fits fun same => ?_
        simp [Point.active, same, nobody] at idle
      | finishing other object =>
        refine elsewhere fits fun same => ?_
        simp [Point.active, same, nobody] at idle
      | draining other object sleeps =>
        refine ⟨elsewhere fits.1 fun same => ?_, fits.2⟩
        simp [Point.drains, same, alone] at share
      | awaiting other object sleeps =>
        constructor
        · exact ⟨fits.1.1, fun held => fits.1.2 (remains held)⟩
        · intro _
          have short := (List.getElem?_eq_some_iff.mp found).1
          exact .inr ⟨mesh, List.mem_set short _⟩
      | _ => trivial
    · trivial
  · intro object
    have changed := total_set (Point.active object) found (.notifying mesh)
    have counted := sound.counts object
    simp only [Point.active, drop] at changed ⊢
    omega
  · intro object
    have changed := total_set (Point.owns object) found (.notifying mesh)
    have owned := sound.mutex object
    change total _ (gather.calls.set index _) =
      if (gather.objects object).operationMutex then 1 else 0
    simp only [Point.owns] at changed
    omega
  · intro other object held
    have changed := total_set (Point.drains object) found (.notifying mesh)
    have drains := sound.drainer other object (remains held)
    have apart : resources ≠ object := by
      rintro rfl
      have same := sound.own other mesh resources (remains held) entry
      simp [drop, same] at held
    change total _ (gather.calls.set index _) =
      if (gather.objects object).releasing then 1 else 0
    simp only [Point.drains, if_neg apart] at changed
    omega

/-- A drain looks at the number of its object. -/
theorem Sound.drainsAgain (sound : Sound gather) {index : Nat} {mesh : Mesh} {resources : Nat}
    {asleep : Bool} (found : gather.calls[index]? = some (.draining mesh resources asleep)) :
    Sound (settled index (drain mesh resources gather)) := by
  have fits := sound.fits _ (List.mem_of_getElem? found)
  unfold drain
  split
  · next drained =>
    rw [if_pos fits.1]
    exact sound.drops found drained
  · next busy =>
    apply sound.replace found
    · exact fun _ => ⟨rfl, rfl, rfl⟩
    · exact ⟨fits.1, fits.2.1, fun _ => busy⟩
    · left
      intro other impossible
      cases impossible

/-- A release up to its first wait. -/
theorem Sound.releases (sound : Sound gather) {index : Nat} {mesh : Mesh}
    (found : gather.calls[index]? = some (.called .release mesh)) :
    Sound (settled index (release mesh gather)) := by
  unfold release
  split
  · apply (sound.recorded (Function.update gather.released mesh true)).replace found
    · exact fun _ => ⟨rfl, rfl, rfl⟩
    · trivial
    · left
      intro other impossible
      cases impossible
  · next resources entry =>
    simp only
    split
    · next closing =>
      apply sound.awaits found
      · exact fun _ => ⟨rfl, rfl, rfl⟩
      · intro other impossible
        cases impossible
      · exact sound.below mesh resources entry
      · exact fun _ => closing
    · next idle =>
      have closing := sound.closes found entry (by simpa using idle)
      have short := (List.getElem?_eq_some_iff.mp found).1
      have placed : (gather.calls.set index (.draining mesh resources false))[index]? =
          some (.draining mesh resources false) := List.getElem?_set_self short
      have after := closing.drainsAgain placed
      by_cases drained : (gather.objects resources).activeOperations = 0
      · simpa [drain, store, settled, settle, drop, entry, drained] using after
      · simpa [drain, store, settled, settle, entry, drained] using after

/-- Every step keeps the invariant. -/
theorem Sound.steps (sound : Sound gather) {action : Action Mesh} {after : Gather Mesh}
    {events : List (Event Mesh)} (stepped : step gather action = some (after, events)) :
    Sound after := by
  cases action with
  | call request mesh =>
    obtain ⟨rfl, _⟩ := Prod.mk.inj (Option.some.inj stepped)
    exact sound.calls request mesh
  | wake index =>
    obtain ⟨point, found, changed⟩ := Option.map_eq_some_iff.mp stepped
    obtain ⟨rfl, _⟩ := Prod.mk.inj changed
    exact sound.wakes found
  | advance index succeeds =>
    obtain ⟨point, found, advanced⟩ := Option.bind_eq_some_iff.mp stepped
    obtain ⟨effect, proceeds, settles⟩ := Option.map_eq_some_iff.mp advanced
    have same : after = settled index effect := (congrArg Prod.fst settles).symm
    rw [same]
    have fits := sound.fits point (List.mem_of_getElem? found)
    cases point with
    | called request mesh =>
      cases request with
      | operation =>
        simp only [proceed] at proceeds
        split at proceeds
        · next resources counted counts =>
          obtain rfl := Option.some.inj proceeds
          exact sound.operates found counts
        · obtain rfl := Option.some.inj proceeds
          exact sound.replace found (fun _ => ⟨rfl, rfl, rfl⟩) trivial (.inl (by simp))
      | reserve =>
        simp only [proceed, reserve] at proceeds
        cases entry : gather.registry mesh with
        | some resources =>
          simp only [entry] at proceeds
          split at proceeds
          all_goals
            next same =>
            obtain ⟨_, rfl⟩ := Prod.mk.inj same
            obtain rfl := Option.some.inj proceeds
            exact sound.replace found (fun _ => ⟨rfl, rfl, rfl⟩) trivial (.inl (by simp))
        | none =>
          have erased := sound.recorded (Function.update gather.released mesh false)
          cases succeeds with
          | false =>
            simp only [entry, Bool.false_eq_true, if_false] at proceeds
            obtain rfl := Option.some.inj proceeds
            exact erased.replace found (fun _ => ⟨rfl, rfl, rfl⟩) trivial (.inl (by simp))
          | true =>
            simp only [entry, if_true] at proceeds
            obtain rfl := Option.some.inj proceeds
            exact (erased.emplaced entry).replace found (fun _ => ⟨rfl, rfl, rfl⟩) trivial
              (.inl (by simp))
      | release =>
        obtain rfl := Option.some.inj proceeds
        exact sound.releases found
    | queued mesh resources =>
      simp only [proceed] at proceeds
      split at proceeds
      · split at proceeds
        · cases proceeds
        · next free =>
          obtain rfl := Option.some.inj proceeds
          exact sound.locks found (by simpa using free)
      · obtain rfl := Option.some.inj proceeds
        exact sound.replace found (fun _ => ⟨rfl, rfl, rfl⟩) fits (.inl (by simp))
    | holding mesh resources =>
      obtain rfl := Option.some.inj proceeds
      exact sound.unlocks found
    | finishing mesh resources =>
      obtain rfl := Option.some.inj proceeds
      exact sound.finishes found
    | draining mesh resources asleep =>
      cases asleep with
      | true => cases proceeds
      | false =>
        obtain rfl := Option.some.inj proceeds
        exact sound.drainsAgain found
    | awaiting mesh resources asleep =>
      cases asleep with
      | true => cases proceeds
      | false =>
        obtain rfl := Option.some.inj proceeds
        exact sound.awaits found (fun _ => ⟨rfl, rfl, rfl⟩) (by simp) fits.1.1 fits.1.2
    | notifying mesh =>
      obtain rfl := Option.some.inj proceeds
      have still : (notifyAll gather).calls[index]? = some (.notifying mesh) := by
        simp [notifyAll, found, Point.woken]
      refine sound.notified.replace still (fun _ => ⟨rfl, rfl, rfl⟩) trivial (.inr ⟨?_, by simp⟩)
      intro other resources member
      have woken := awake_after_notification member
      simp [Point.woken] at woken
    | returning mesh =>
      obtain rfl := Option.some.inj proceeds
      exact sound.replace found (fun _ => ⟨rfl, rfl, rfl⟩) trivial (.inl (by simp))
    | finished => cases proceeds
    | reserved => cases proceeds
    | released => cases proceeds
    | refused => cases proceeds

end Entries

end KvCache.GatherResources
