import KvCache.Gather.RegistrySafe

/-!
# What is seen of a section

A section moves one call; other calls at most wake up. How the call moves, what is seen of
it and what happens to the registry is said once, and the history of a run follows from it.
-/

namespace KvCache.GatherResources

open Run Tally

variable {Mesh : Type} {gather after : Gather Mesh} {index : Nat}
  {caller : Option Nat} {old new : Point Mesh} {events : List (Event Mesh)}

/-- How the call at `index` moves, by a section of its own or a spurious wakeup, and what is
seen. -/
inductive Moves (gather : Gather Mesh) (index : Nat) :
    Option Nat → Point Mesh → Point Mesh → List (Event Mesh) → Prop where
  | counts (mesh : Mesh) (resources : Nat)
      (opened : resources = gather.made ∨ (gather.objects resources).releasing = false) :
      Moves gather index (some index) (.called .operation mesh) (.queued mesh resources)
        [.counted index mesh]
  | reserves (mesh : Mesh) :
      Moves gather index (some index) (.called .reserve mesh) .reserved [.reserved mesh]
  | refuses (request : Request) (mesh : Mesh) (other : request ≠ .release) :
      Moves gather index (some index) (.called request mesh) .refused []
  | records (mesh : Mesh) (absent : gather.registry mesh = none) :
      Moves gather index (some index) (.called .release mesh) (.returning mesh) [.dropped mesh]
  | joins (mesh : Mesh) (resources : Nat) (entry : gather.registry mesh = some resources) :
      Moves gather index (some index) (.called .release mesh) (.awaiting mesh resources true) []
  | closes (mesh : Mesh) (resources : Nat) (entry : gather.registry mesh = some resources) :
      Moves gather index (some index) (.called .release mesh) (.draining mesh resources true) []
  | drops (mesh : Mesh) (resources : Nat) (old : Point Mesh)
      (entry : gather.registry mesh = some resources)
      (drained : (gather.objects resources).activeOperations = 0)
      (releases : old = .called .release mesh ∨ old = .draining mesh resources false) :
      Moves gather index (some index) old (.notifying mesh) [.dropped mesh]
  | drains (mesh : Mesh) (resources : Nat)
      (busy : (gather.objects resources).activeOperations ≠ 0) :
      Moves gather index (some index) (.draining mesh resources false) (.draining mesh resources true) []
  | awaits (mesh : Mesh) (resources : Nat) (entry : gather.registry mesh = some resources) :
      Moves gather index (some index) (.awaiting mesh resources false) (.awaiting mesh resources true) []
  | leaves (mesh : Mesh) (resources : Nat) (gone : gather.registry mesh ≠ some resources) :
      Moves gather index (some index) (.awaiting mesh resources false) (.returning mesh) []
  | locks (mesh : Mesh) (resources : Nat) :
      Moves gather index (some index) (.queued mesh resources) (.holding mesh resources) []
  | fails (mesh : Mesh) (resources : Nat) :
      Moves gather index (some index) (.queued mesh resources) (.finishing mesh resources) []
  | unlocks (mesh : Mesh) (resources : Nat) :
      Moves gather index (some index) (.holding mesh resources) (.finishing mesh resources) []
  | finishes (mesh : Mesh) (resources : Nat) :
      Moves gather index (some index) (.finishing mesh resources) .finished [.uncounted index]
  | returns (mesh : Mesh) (old : Point Mesh) (done : old = .notifying mesh ∨ old = .returning mesh) :
      Moves gather index (some index) old .released [.returned index mesh]
  | wakes (point : Point Mesh) : Moves gather index none point point.woken []

/-- The other calls stay where they are, but may wake; totals change by the moved call. -/
structure Others (gather after : Gather Mesh) (index : Nat) (old new : Point Mesh) : Prop where
  same : ∀ other, other ≠ index →
    after.calls[other]? = gather.calls[other]? ∨
      after.calls[other]? = gather.calls[other]?.map Point.woken
  totals : ∀ weight : Point Mesh → Nat, (∀ point, weight point.woken = weight point) →
    total weight after.calls + weight old = total weight gather.calls + weight new

/-- The other calls when no call is woken. -/
theorem others_of_set (found : gather.calls[index]? = some old)
    (same : after.calls = gather.calls.set index new) : Others gather after index old new where
  same := by
    intro other different
    left
    rw [same, List.getElem?_set_ne different.symm]
  totals := by
    intro weight _
    rw [same]
    exact total_set weight found new

/-- The other calls after a notification. -/
theorem others_of_notified (found : gather.calls[index]? = some old)
    (same : after.calls = (gather.calls.map Point.woken).set index new) :
    Others gather after index old new where
  same := by
    intro other different
    right
    rw [same, List.getElem?_set_ne different.symm, List.getElem?_map]
  totals := by
    intro weight kept
    have woken : (gather.calls.map Point.woken)[index]? = some old.woken := by
      rw [List.getElem?_map, found, Option.map_some]
    have moved := total_set weight woken new
    rw [same]
    rwa [kept, total_map kept] at moved

section Entries

variable [DecidableEq Mesh]

/-- What an effect does to the calls. -/
theorem drain_moves (index : Nat) {mesh : Mesh} {resources : Nat}
    (entry : gather.registry mesh = some resources)
    (releases : old = .called .release mesh ∨ old = .draining mesh resources false) :
    Moves gather index (some index) old (drain mesh resources gather).2.1 (drain mesh resources gather).2.2 ∧
      (drain mesh resources gather).1.calls = gather.calls := by
  unfold drain
  split
  · next drained => exact ⟨.drops mesh resources old entry drained releases, rfl⟩
  · next busy =>
    constructor
    · obtain rfl | rfl := releases
      · exact .closes mesh resources entry
      · exact .drains mesh resources busy
    · rfl

/-- The first section of a release. -/
theorem release_moves (index : Nat) (mesh : Mesh) :
    Moves gather index (some index) (.called .release mesh) (release mesh gather).2.1
        (release mesh gather).2.2 ∧
      (release mesh gather).1.calls = gather.calls := by
  unfold release
  split
  · next absent => exact ⟨.records mesh absent, rfl⟩
  · next resources entry =>
    simp only
    split
    · simp only [await, if_pos entry]
      exact ⟨.joins mesh resources entry, trivial⟩
    · simp only [drain, store, Function.update_self]
      split
      · next drained =>
        simp only [entry, if_true]
        exact ⟨.drops mesh resources _ entry drained (.inl rfl), rfl⟩
      · exact ⟨.closes mesh resources entry, rfl⟩

/-- Counting an operation moves no call and finds an object that is not being released. -/
theorem count_calls {mesh : Mesh} {allocates : Bool} {resources : Nat} {counted : Gather Mesh}
    (counts : count mesh allocates gather = some (resources, counted)) :
    counted.calls = gather.calls ∧
      (resources = gather.made ∨ (gather.objects resources).releasing = false) := by
  unfold count find at counts
  split at counts
  · cases counts
  · split at counts
    · simp only [Option.bind_some] at counts
      split at counts
      · cases counts
      · next idle =>
        obtain ⟨rfl, rfl⟩ := Prod.mk.inj (Option.some.inj counts)
        exact ⟨rfl, .inr (by simpa using idle)⟩
    · split at counts
      · simp only [Option.bind_some] at counts
        split at counts
        · cases counts
        · obtain ⟨rfl, rfl⟩ := Prod.mk.inj (Option.some.inj counts)
          exact ⟨rfl, .inl rfl⟩
      · cases counts

/-- Reserving moves no call. -/
theorem reserve_calls (mesh : Mesh) (allocates : Bool) :
    (reserve mesh allocates gather).2.calls = gather.calls := by
  unfold reserve
  split
  · rfl
  · cases allocates <;> rfl

/-- A section moves one call. -/
theorem proceed_moves (sound : Sound gather) (found : gather.calls[index]? = some old)
    {succeeds : Bool} {effect : Effect Mesh}
    (proceeds : proceed index succeeds gather old = some effect) :
    Moves gather index (some index) old effect.2.1 effect.2.2 ∧
      (effect.1.calls = gather.calls ∨ effect.1.calls = gather.calls.map Point.woken) := by
  have fits := sound.fits old (List.mem_of_getElem? found)
  cases old with
  | called request mesh =>
    cases request with
    | operation =>
      simp only [proceed] at proceeds
      split at proceeds
      · next resources counted counts =>
        obtain rfl := Option.some.inj proceeds
        exact ⟨.counts mesh resources (count_calls counts).2, .inl (count_calls counts).1⟩
      · obtain rfl := Option.some.inj proceeds
        exact ⟨.refuses .operation mesh (by simp), .inl rfl⟩
    | reserve =>
      have calls : (reserve mesh succeeds gather).2.calls = gather.calls :=
        reserve_calls mesh succeeds
      simp only [proceed] at proceeds
      split at proceeds
      · next reserved =>
        obtain rfl := Option.some.inj proceeds
        exact ⟨.reserves mesh, .inl (by simpa only [reserved] using calls)⟩
      · next refused =>
        obtain rfl := Option.some.inj proceeds
        exact ⟨.refuses .reserve mesh (by simp), .inl (by simpa only [refused] using calls)⟩
    | release =>
      obtain rfl := Option.some.inj proceeds
      exact ⟨(release_moves index mesh).1, .inl (release_moves index mesh).2⟩
  | queued mesh resources =>
    simp only [proceed] at proceeds
    split at proceeds
    · split at proceeds
      · cases proceeds
      · obtain rfl := Option.some.inj proceeds
        exact ⟨.locks mesh resources, .inl rfl⟩
    · obtain rfl := Option.some.inj proceeds
      exact ⟨.fails mesh resources, .inl rfl⟩
  | holding mesh resources =>
    obtain rfl := Option.some.inj proceeds
    exact ⟨.unlocks mesh resources, .inl rfl⟩
  | finishing mesh resources =>
    obtain rfl := Option.some.inj proceeds
    exact ⟨.finishes mesh resources, .inr rfl⟩
  | draining mesh resources asleep =>
    cases asleep with
    | true => cases proceeds
    | false =>
      obtain rfl := Option.some.inj proceeds
      have moves := drain_moves index fits.1 (.inr rfl)
      exact ⟨moves.1, .inl moves.2⟩
  | awaiting mesh resources asleep =>
    cases asleep with
    | true => cases proceeds
    | false =>
      obtain rfl := Option.some.inj proceeds
      unfold await
      split
      · next entry => exact ⟨.awaits mesh resources entry, .inl rfl⟩
      · next gone => exact ⟨.leaves mesh resources gone, .inl rfl⟩
  | notifying mesh =>
    obtain rfl := Option.some.inj proceeds
    exact ⟨.returns mesh _ (.inl rfl), .inr rfl⟩
  | returning mesh =>
    obtain rfl := Option.some.inj proceeds
    exact ⟨.returns mesh _ (.inr rfl), .inl rfl⟩
  | finished => cases proceeds
  | reserved => cases proceeds
  | released => cases proceeds
  | refused => cases proceeds

/-- What a step does to the calls: it adds one, or moves one. -/
theorem step_moves (sound : Sound gather) {action : Action Mesh}
    (stepped : step gather action = some (after, events)) :
    (∃ request mesh, action.caller = none ∧ after.calls = gather.calls ++ [.called request mesh] ∧
      events = if request = .release then [.began gather.calls.length mesh] else []) ∨
    ∃ index old new, gather.calls[index]? = some old ∧ after.calls[index]? = some new ∧
      Others gather after index old new ∧ Moves gather index action.caller old new events := by
  cases action with
  | call request mesh =>
    obtain ⟨rfl, rfl⟩ := Prod.mk.inj (Option.some.inj stepped)
    exact .inl ⟨request, mesh, rfl, rfl, rfl⟩
  | wake index =>
    obtain ⟨point, found, changed⟩ := Option.map_eq_some_iff.mp stepped
    obtain ⟨rfl, rfl⟩ := Prod.mk.inj changed
    have short := (List.getElem?_eq_some_iff.mp found).1
    exact .inr ⟨index, point, point.woken, found, by simp [short], others_of_set found rfl,
      .wakes point⟩
  | advance index succeeds =>
    obtain ⟨point, found, advanced⟩ := Option.bind_eq_some_iff.mp stepped
    obtain ⟨effect, proceeds, settles⟩ := Option.map_eq_some_iff.mp advanced
    obtain ⟨rfl, rfl⟩ := Prod.mk.inj settles
    obtain ⟨moves, calls⟩ := proceed_moves sound found proceeds
    have short := (List.getElem?_eq_some_iff.mp found).1
    refine .inr ⟨index, point, effect.2.1, found, ?_, ?_, moves⟩
    · have counted : effect.1.calls.length = gather.calls.length := by
        obtain same | woken := calls
        · rw [same]
        · rw [woken, List.length_map]
      exact List.getElem?_set_self (counted ▸ short)
    · obtain same | woken := calls
      · exact others_of_set found (congrArg (·.set index effect.2.1) same)
      · exact others_of_notified found (congrArg (·.set index effect.2.1) woken)

end Entries

/-! ## How often an operation is counted -/

/-- The operation of a call is counted. -/
def Event.counts (call : Nat) : Event Mesh → Bool
  | .counted other _ => other == call
  | _ => false

/-- The operation of a call is uncounted. -/
def Event.uncounts (call : Nat) : Event Mesh → Bool
  | .uncounted other => other == call
  | _ => false

/-- How often the operation of a call has been counted. -/
def Point.timesCounted : Point Mesh → Nat
  | .queued _ _ | .holding _ _ | .finishing _ _ | .finished => 1
  | _ => 0

/-- How often the operation of a call has been uncounted. -/
def Point.timesUncounted : Point Mesh → Nat
  | .finished => 1
  | _ => 0

/-- A move counts or uncounts its call as often as it says. -/
theorem Moves.tally (moves : Moves gather index caller old new events) :
    new.timesCounted = old.timesCounted + events.countP (Event.counts index) ∧
      new.timesUncounted = old.timesUncounted + events.countP (Event.uncounts index) := by
  cases moves with
  | counts | finishes =>
    constructor <;> simp [Point.timesCounted, Point.timesUncounted, Event.counts, Event.uncounts]
  | drops mesh resources old entry drained releases =>
    obtain rfl | rfl := releases <;> exact ⟨rfl, rfl⟩
  | returns mesh old done => obtain rfl | rfl := done <;> exact ⟨rfl, rfl⟩
  | wakes => cases old <;> exact ⟨rfl, rfl⟩
  | _ => exact ⟨rfl, rfl⟩

/-- A move counts and uncounts no other call. -/
theorem Moves.tally_other (moves : Moves gather index caller old new events) {other : Nat}
    (different : other ≠ index) :
    events.countP (Event.counts other) = 0 ∧ events.countP (Event.uncounts other) = 0 := by
  cases moves with
  | counts | finishes => constructor <;> simp [Event.counts, Event.uncounts, different.symm]
  | _ => exact ⟨rfl, rfl⟩

/-- The history counts and uncounts every call as often as where it is says. -/
structure Tallied (trace : List (Event Mesh)) (gather : Gather Mesh) : Prop where
  counted : ∀ call, trace.countP (Event.counts call) =
    gather.calls[call]?.elim 0 Point.timesCounted
  uncounted : ∀ call, trace.countP (Event.uncounts call) =
    gather.calls[call]?.elim 0 Point.timesUncounted

/-- A number that waking does not change is that of the call before. -/
theorem Others.elim_eq (others : Others gather after index old new) {measure : Point Mesh → Nat}
    (kept : ∀ point : Point Mesh, measure point.woken = measure point) {other : Nat}
    (different : other ≠ index) :
    after.calls[other]?.elim 0 measure = gather.calls[other]?.elim 0 measure := by
  obtain same | woken := others.same other different
  · rw [same]
  · rw [woken]
    cases gather.calls[other]? with
    | none => rfl
    | some point => exact kept point

/-- A new call has not been counted. -/
theorem elim_concat (calls : List (Point Mesh)) (point : Point Mesh) {measure : Point Mesh → Nat}
    (nothing : measure point = 0) (call : Nat) :
    (calls ++ [point])[call]?.elim 0 measure = calls[call]?.elim 0 measure := by
  obtain before | same | later := Nat.lt_trichotomy call calls.length
  · rw [List.getElem?_append_left before]
  · simp [same, nothing]
  · rw [List.getElem?_eq_none (by simp; omega), List.getElem?_eq_none (by omega)]

/-- Every step keeps the tallies. -/
theorem Tallied.steps [DecidableEq Mesh] {trace : List (Event Mesh)} (tallied : Tallied trace gather)
    (sound : Sound gather) {action : Action Mesh}
    (stepped : step gather action = some (after, events)) : Tallied (trace ++ events) after := by
  obtain ⟨request, mesh, _, calls, rfl⟩ | ⟨index, old, new, found, placed, others, moves⟩ :=
    step_moves sound stepped
  · constructor
    · intro call
      rw [calls, elim_concat _ _ rfl, ← tallied.counted, List.countP_append]
      split <;> rfl
    · intro call
      rw [calls, elim_concat _ _ rfl, ← tallied.uncounted, List.countP_append]
      split <;> rfl
  · constructor
    · intro call
      rw [List.countP_append, tallied.counted]
      by_cases here : call = index
      · rw [here, found, placed]
        exact moves.tally.1.symm
      · rw [(moves.tally_other here).1, others.elim_eq (fun point => ?_) here, Nat.add_zero]
        cases point <;> rfl
    · intro call
      rw [List.countP_append, tallied.uncounted]
      by_cases here : call = index
      · rw [here, found, placed]
        exact moves.tally.2.symm
      · rw [(moves.tally_other here).2, others.elim_eq (fun point => ?_) here, Nat.add_zero]
        cases point <;> rfl

/-! ## What happens to the registry -/

/-- What a step does to the entries of the meshes. -/
structure Registers (gather after : Gather Mesh) (supplied : Prop)
    (events : List (Event Mesh)) : Prop where
  keeps : ∀ mesh resources, gather.registry mesh = some resources →
    after.registry mesh = some resources ∨ .dropped mesh ∈ events
  shut : supplied → ∀ mesh, gather.released mesh = true → gather.registry mesh = none →
    (after.released mesh = true ∧ after.registry mesh = none) ∨ .reserved mesh ∈ events
  drops : ∀ mesh, .dropped mesh ∈ events →
    after.released mesh = true ∧ after.registry mesh = none
  counts : ∀ call mesh, .counted call mesh ∈ events → gather.released mesh = false
  grows : gather.made ≤ after.made
  renews : ∀ mesh resources, resources < gather.made → gather.registry mesh ≠ some resources →
    after.registry mesh ≠ some resources

/-- Nothing happens to the entries. -/
theorem Registers.same {supplied : Prop} (registry : after.registry = gather.registry)
    (released : after.released = gather.released) (made : after.made = gather.made)
    (silent : ∀ event ∈ events, (∃ call, event = .uncounted call) ∨
      (∃ call mesh, event = .began call mesh) ∨ (∃ call mesh, event = .returned call mesh) ∨
        ∃ mesh, event = .reserved mesh) :
    Registers gather after supplied events where
  keeps := by
    intro mesh resources entry
    rw [registry]
    exact .inl entry
  shut := by
    intro _ mesh recorded absent
    rw [registry, released]
    exact .inl ⟨recorded, absent⟩
  drops := by
    intro mesh seen
    have excluded := silent _ seen
    simp at excluded
  counts := by
    intro call mesh seen
    have excluded := silent _ seen
    simp at excluded
  grows := made.ge
  renews := by
    intro mesh resources _ different
    rw [registry]
    exact different

section Entries

variable [DecidableEq Mesh]

/-- A mesh without an entry gets one, with a count or a reserve. -/
theorem Registers.emplaced {supplied : Prop} {mesh : Mesh} {released : Mesh → Bool}
    (absent : gather.registry mesh = none)
    (registry : after.registry = Function.update gather.registry mesh (some gather.made))
    (flags : after.released = released) (others : ∀ other, other ≠ mesh → released other = gather.released other)
    (made : after.made = gather.made + 1)
    (seen : events = [.reserved mesh] ∨
      (∃ call, events = [.counted call mesh]) ∧ gather.released mesh = false) :
    Registers gather after supplied events where
  keeps := by
    intro other resources entry
    left
    rw [registry, Function.update_of_ne]
    · exact entry
    · rintro rfl
      simp [absent] at entry
  shut := by
    intro _ other recorded missing
    by_cases here : other = mesh
    · obtain rfl | ⟨_, kept⟩ := seen
      · exact .inr (by simp [here])
      · rw [here, kept] at recorded
        cases recorded
    · left
      rw [registry, flags, Function.update_of_ne here, others other here]
      exact ⟨recorded, missing⟩
  drops := by
    intro other impossible
    obtain rfl | ⟨⟨call, rfl⟩, _⟩ := seen <;> simp at impossible
  counts := by
    intro call other counted
    obtain rfl | ⟨⟨caller, rfl⟩, kept⟩ := seen
    · simp at counted
    · simp only [List.mem_singleton, Event.counted.injEq] at counted
      exact counted.2 ▸ kept
  grows := made ▸ Nat.le_succ _
  renews := by
    intro other resources under different
    rw [registry, Function.update_apply]
    split
    · intro same
      have new := Option.some.inj same
      omega
    · exact different

/-- A release drops a mesh. -/
theorem Registers.dropped {supplied : Prop} {mesh : Mesh}
    (registry : after.registry = Function.update gather.registry mesh none)
    (released : after.released = Function.update gather.released mesh true)
    (made : after.made = gather.made) :
    Registers gather after supplied [.dropped mesh] where
  keeps := by
    intro other resources entry
    by_cases here : other = mesh
    · exact .inr (by simp [here])
    · left
      rw [registry, Function.update_of_ne here]
      exact entry
  shut := by
    intro _ other recorded missing
    left
    by_cases here : other = mesh
    · simp [registry, released, here]
    · rw [registry, released, Function.update_of_ne here, Function.update_of_ne here]
      exact ⟨recorded, missing⟩
  drops := by
    intro other seen
    have here : other = mesh := by simpa using seen
    simp [registry, released, here]
  counts := by simp
  grows := made.ge
  renews := by
    intro other resources _ different
    rw [registry, Function.update_apply]
    split
    · simp
    · exact different

/-- What happens to the registry when an object is drained. -/
theorem drain_registers {supplied : Prop} (mesh : Mesh) (resources : Nat) :
    Registers gather (drain mesh resources gather).1 supplied
      (drain mesh resources gather).2.2 := by
  unfold drain
  split
  · split
    · exact .dropped rfl rfl rfl
    · exact .same rfl rfl rfl (by simp)
  · exact .same rfl rfl rfl (by simp)

omit [DecidableEq Mesh] in
/-- What happens to the registry when a release waits for another one. -/
theorem await_registers {supplied : Prop} (mesh : Mesh) (resources : Nat) :
    Registers gather (await mesh resources gather).1 supplied
      (await mesh resources gather).2.2 := by
  unfold await
  split <;> exact .same rfl rfl rfl (by simp)

/-- What happens to the registry in the first section of a release. -/
theorem release_registers {supplied : Prop} (mesh : Mesh) :
    Registers gather (release mesh gather).1 supplied (release mesh gather).2.2 := by
  unfold release
  split
  · next absent =>
    refine .dropped ?_ rfl rfl
    exact (Function.update_eq_self_iff.mpr absent.symm).symm
  · next resources entry =>
    simp only
    split
    · exact await_registers mesh resources
    · have draining : Registers
          (store resources { gather.objects resources with releasing := true } gather) _ supplied _ :=
        drain_registers mesh resources
      exact ⟨draining.keeps, draining.shut, draining.drops, draining.counts, draining.grows,
        draining.renews⟩

/-- What happens to the registry when an operation is counted. -/
theorem count_registers {supplied : Prop} {mesh : Mesh} {allocates : Bool} {resources : Nat}
    {counted : Gather Mesh} (counts : count mesh allocates gather = some (resources, counted)) :
    Registers gather counted supplied [.counted index mesh] := by
  unfold count find at counts
  split at counts
  · cases counts
  · next unreleased =>
    have kept : gather.released mesh = false := by simpa using unreleased
    split at counts
    · simp only [Option.bind_some] at counts
      split at counts
      · cases counts
      · obtain ⟨_, rfl⟩ := Prod.mk.inj (Option.some.inj counts)
        constructor
        · intro other entry held
          exact .inl held
        · intro _ other recorded missing
          exact .inl ⟨recorded, missing⟩
        · simp
        · intro call other seen
          simp only [List.mem_singleton, Event.counted.injEq] at seen
          exact seen.2 ▸ kept
        · exact Nat.le_refl _
        · intro other entry _ different
          exact different
    · next absent =>
      split at counts
      · simp only [Option.bind_some] at counts
        split at counts
        · cases counts
        · obtain ⟨_, rfl⟩ := Prod.mk.inj (Option.some.inj counts)
          exact .emplaced absent rfl rfl (fun _ _ => rfl) rfl (.inr ⟨⟨index, rfl⟩, kept⟩)
      · cases counts

/-- What happens to the registry in a section of a call. -/
theorem proceed_registers (found : gather.calls[index]? = some old) {succeeds : Bool}
    {effect : Effect Mesh} (proceeds : proceed index succeeds gather old = some effect) :
    Registers gather effect.1 (Supplied gather (.advance index succeeds)) effect.2.2 := by
  cases old with
  | called request mesh =>
    cases request with
    | operation =>
      simp only [proceed] at proceeds
      split at proceeds
      · next resources counted counts =>
        obtain rfl := Option.some.inj proceeds
        exact count_registers counts
      · obtain rfl := Option.some.inj proceeds
        exact .same rfl rfl rfl (by simp)
    | reserve =>
      simp only [proceed, reserve] at proceeds
      cases entry : gather.registry mesh with
      | some resources =>
        simp only [entry] at proceeds
        split at proceeds
        all_goals
          next same =>
          obtain ⟨_, rfl⟩ := Prod.mk.inj same
          obtain rfl := Option.some.inj proceeds
          exact .same rfl rfl rfl (by simp)
      | none =>
        cases succeeds with
        | true =>
          simp only [entry, if_true] at proceeds
          obtain rfl := Option.some.inj proceeds
          refine .emplaced entry rfl rfl (fun other different => ?_) rfl (.inl rfl)
          exact Function.update_of_ne different _ _
        | false =>
          simp only [entry, Bool.false_eq_true, if_false] at proceeds
          obtain rfl := Option.some.inj proceeds
          constructor
          · intro other resources held
            exact .inl held
          · intro supplied other recorded missing
            left
            -- The released set loses only a mesh that it did not have.
            have kept := supplied mesh found entry
            have apart : other ≠ mesh := by
              rintro rfl
              simp [kept] at recorded
            exact ⟨(Function.update_of_ne apart _ _).trans recorded, missing⟩
          · simp
          · simp
          · exact Nat.le_refl _
          · intro other resources _ different
            exact different
    | release =>
      obtain rfl := Option.some.inj proceeds
      exact release_registers mesh
  | queued mesh resources =>
    simp only [proceed] at proceeds
    split at proceeds
    · split at proceeds
      · cases proceeds
      · obtain rfl := Option.some.inj proceeds
        exact .same rfl rfl rfl (by simp)
    · obtain rfl := Option.some.inj proceeds
      exact .same rfl rfl rfl (by simp)
  | holding mesh resources =>
    obtain rfl := Option.some.inj proceeds
    exact .same rfl rfl rfl (by simp)
  | finishing mesh resources =>
    obtain rfl := Option.some.inj proceeds
    exact .same rfl rfl rfl (by simp)
  | draining mesh resources asleep =>
    cases asleep with
    | true => cases proceeds
    | false =>
      obtain rfl := Option.some.inj proceeds
      exact drain_registers mesh resources
  | awaiting mesh resources asleep =>
    cases asleep with
    | true => cases proceeds
    | false =>
      obtain rfl := Option.some.inj proceeds
      exact await_registers mesh resources
  | notifying mesh =>
    obtain rfl := Option.some.inj proceeds
    exact .same rfl rfl rfl (by simp)
  | returning mesh =>
    obtain rfl := Option.some.inj proceeds
    exact .same rfl rfl rfl (by simp)
  | finished => cases proceeds
  | reserved => cases proceeds
  | released => cases proceeds
  | refused => cases proceeds

/-- What happens to the registry in a step. -/
theorem step_registers {action : Action Mesh} (stepped : step gather action = some (after, events)) :
    Registers gather after (Supplied gather action) events := by
  cases action with
  | call request mesh =>
    obtain ⟨rfl, rfl⟩ := Prod.mk.inj (Option.some.inj stepped)
    refine .same rfl rfl rfl ?_
    intro event seen
    split at seen
    · exact .inr (.inl ⟨_, _, List.mem_singleton.mp seen⟩)
    · cases seen
  | wake index =>
    obtain ⟨point, found, changed⟩ := Option.map_eq_some_iff.mp stepped
    obtain ⟨rfl, rfl⟩ := Prod.mk.inj changed
    exact .same rfl rfl rfl (by simp)
  | advance index succeeds =>
    obtain ⟨point, found, advanced⟩ := Option.bind_eq_some_iff.mp stepped
    obtain ⟨effect, proceeds, settles⟩ := Option.map_eq_some_iff.mp advanced
    obtain ⟨rfl, rfl⟩ := Prod.mk.inj settles
    have registers := proceed_registers found proceeds
    exact ⟨registers.keeps, registers.shut, registers.drops, registers.counts, registers.grows,
      registers.renews⟩

end Entries

end KvCache.GatherResources
