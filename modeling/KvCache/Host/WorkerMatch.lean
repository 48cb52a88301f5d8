import KvCache.Host.ExternalWorker
import KvCache.Host.InternalWorker

/-!
# Matched states of the two host workers

The internal worker keeps the units of a value in the value; the manager keeps a lease. Two
states match if every slot is backed alike, the runtimes are equal, and the pool accounts for
the extents that back the slots. Dropping a value keeps states matched: the accounts rule out
that a check of the release fails on one side only.
-/

namespace KvCache.HostTransfer

open Layout Pool PoolMachine Function Worker

variable {cfg : RuntimeConfig} {device : Device}

/-! ## The runtime -/

/-- Allocation from the pool: nothing changes, or an extent leaves the free list. -/
theorem run_poolAlloc (cfg : RuntimeConfig) (units : Nat) (runtime : Runtime) :
    run (poolAlloc cfg units) runtime = .finished none runtime ∨
      ∃ unit remaining, Pool.poolAlloc units runtime.poolFree = some (unit, remaining) ∧
        cfg.poolHost = true ∧ 0 < units ∧
        run (poolAlloc cfg units) runtime =
          .finished (some unit) { runtime with poolFree := remaining } := by
  simp only [poolAlloc, run_current_bind]
  split
  · exact Or.inl rfl
  · next usable =>
    split
    · exact Or.inl rfl
    · next unit remaining found =>
      refine Or.inr ⟨unit, remaining, found, ?_, ?_, rfl⟩
      · simpa using fun missing => usable (Or.inl missing)
      · exact Nat.pos_of_ne_zero fun none => usable (Or.inr none)

/-- An extent in use is released without a failed check. -/
theorem run_poolRelease {unit units : Nat} {runtime : Runtime}
    (checked : poolReleaseChecked cfg.poolUnitsTotal ⟨unit, units⟩ runtime.poolFree =
      .returned (Pool.poolRelease ⟨unit, units⟩ runtime.poolFree)) :
    run (poolRelease cfg unit units) runtime =
      .finished () { runtime with poolFree := Pool.poolRelease ⟨unit, units⟩ runtime.poolFree } := by
  simp only [poolRelease, run_current_bind, checked, run_change]

/-- The record of a slot without a published value. -/
def noRecord : PoolMeta := ⟨0, 0, 0, 0⟩

/-- Set the record of a slot. -/
def setMeta (slot : Nat) (record : PoolMeta) (runtime : Runtime) : Runtime :=
  { runtime with poolMeta := update runtime.poolMeta slot record }

theorem run_invalidateMeta {slot : Nat} (inRange : slot < cfg.maxKeys) (runtime : Runtime) :
    run (invalidateMeta cfg slot) runtime = .finished () (setMeta slot noRecord runtime) := by
  simp only [invalidateMeta, run_fatalUnless_bind inRange, run_change]
  rfl

/-- A record that has the generation is invalidated. -/
theorem run_invalidateMetaIfGeneration {slot generation readOff totalLen : Nat} {runtime : Runtime}
    (inRange : slot < cfg.maxKeys) (published : generation ≠ 0)
    (record : runtime.poolMeta slot = ⟨generation, readOff, totalLen, generation⟩) :
    run (invalidateMetaIfGeneration cfg slot generation) runtime =
      .finished () (setMeta slot noRecord runtime) := by
  have stores : invalidatePoolMetaIfGeneration (runtime.poolMeta slot) generation =
      invalidatePoolMeta := by
    simp [invalidatePoolMetaIfGeneration, record, published]
  simp only [invalidateMetaIfGeneration, if_neg published, run_fatalUnless_bind inRange, run_change,
    stores]
  rfl

theorem run_publishMeta {slot readOff totalLen : Nat} (inRange : slot < cfg.maxKeys)
    (runtime : Runtime) :
    let generation := nextPoolGeneration (runtime.poolMetaGenerations slot)
    run (publishMeta cfg slot readOff totalLen) runtime =
      .finished generation
        (setMeta slot ⟨generation, readOff, totalLen, generation⟩
          { runtime with
            poolMetaGenerations := update runtime.poolMetaGenerations slot generation }) := by
  simp only [publishMeta, run_fatalUnless_bind inRange, run_current_bind, run_change_bind, run_pure]
  rfl

/-! ## The same backing -/

/-- The lease for the extent of a host value. -/
def leaseOf (cfg : RuntimeConfig) (slot : Nat) (value : Internal.HostValue) : External.HostLease :=
  ⟨slot, value.poolUnit, value.poolUnits, cfg.poolReadOff + value.poolUnit * maxChunkValueBytes,
    value.generation, value.len⟩

/-- Two host values of a slot that back it alike, given its record. -/
def Backs (cfg : RuntimeConfig) (slot : Nat) (record : PoolMeta) :
    Option Internal.HostValue → Option External.HostValue → Prop
  | none, none => record = noRecord
  | some value, some other =>
    value.len = other.len ∧ 0 < value.len ∧
      match other.lease with
      | none =>
        value.poolUnits = 0 ∧ value.heap = other.bytes ∧ other.bytes.length = other.len ∧
          record = noRecord
      | some lease =>
        cfg.poolHost = true ∧ 0 < value.poolUnits ∧
          lease = leaseOf cfg slot value ∧ value.generation ≠ 0 ∧
          record = ⟨value.generation, lease.readOffset, value.len, value.generation⟩
  | _, _ => False

/-- The extent of a host value. -/
def Internal.HostValue.extent (value : Internal.HostValue) : Option Extent :=
  if value.poolUnits = 0 then none else some ⟨value.poolUnit, value.poolUnits⟩

/-- The extents that back the slots. -/
def Internal.held (hostValues : Nat → Option Internal.HostValue) (slot : Nat) : Option Extent :=
  (hostValues slot).bind Internal.HostValue.extent

/-- The same runtime, counters and backing of every slot, and a pool that accounts for the
extents. -/
structure Matches (cfg : RuntimeConfig) (internal : Internal.State) (external : External.State) :
    Prop where
  runtime : internal.runtime = external.runtime.runtime
  seen : internal.seen = external.runtime.seen
  commitIssued : internal.commitIssued = external.runtime.commitIssued
  evictIssued : internal.evictIssued = external.runtime.evictIssued
  values : ∀ slot,
    Backs cfg slot (internal.runtime.poolMeta slot) (internal.hostValues slot)
      (external.hostValues slot)
  accounts : Accounts cfg.poolUnitsTotal internal.runtime.poolFree
    (Internal.held internal.hostValues)

/-- The states match between two requests. -/
structure Agrees (cfg : RuntimeConfig) (internal : Internal.State) (external : External.State) :
    Prop extends Matches cfg internal external where
  idle : external.runtime.request = none

theorem held_put (hostValues : Nat → Option Internal.HostValue) (slot : Nat)
    (value : Option Internal.HostValue) :
    Internal.held (update hostValues slot value) =
      update (Internal.held hostValues) slot (value.bind Internal.HostValue.extent) := by
  funext other
  by_cases same : other = slot
  · subst same
    simp [Internal.held]
  · simp [Internal.held, same]

/-- A new value for one slot on both sides, with its record and its extent. -/
theorem Matches.put {internal : Internal.State} {external : External.State}
    (same : Matches cfg internal external) (slot : Nat) (runtime : Runtime)
    (value : Option Internal.HostValue) (other : Option External.HostValue)
    (elsewhere : ∀ another, another ≠ slot →
      runtime.poolMeta another = internal.runtime.poolMeta another)
    (backs : Backs cfg slot (runtime.poolMeta slot) value other)
    (accounts : Accounts cfg.poolUnitsTotal runtime.poolFree
      (update (Internal.held internal.hostValues) slot
        (value.bind Internal.HostValue.extent))) :
    Matches cfg
      { internal with
        runtime := runtime
        hostValues := update internal.hostValues slot value }
      { runtime := { external.runtime with runtime := runtime }
        hostValues := update external.hostValues slot other } where
  runtime := rfl
  seen := same.seen
  commitIssued := same.commitIssued
  evictIssued := same.evictIssued
  values := by
    intro another
    by_cases here : another = slot
    · subst here
      simpa using backs
    · simpa [here, elsewhere another here] using same.values another
  accounts := by
    rw [← held_put] at accounts
    exact accounts

/-! ## Dropping a value -/

/-- What a drop leaves of the parts it does not touch. -/
structure Dropped (slot : Nat) (before after : Internal.State) (former latter : External.State) :
    Prop where
  gone : after.hostValues slot = none
  effects : after.runtime.effects = before.runtime.effects
  seen : after.seen = before.seen
  evictIssued : after.evictIssued = before.evictIssued
  request : latter.runtime.request = former.runtime.request

/-- An update with the value that is there. -/
theorem update_same {α β : Type} [DecidableEq α] {function : α → β} {point : α} {value : β}
    (there : function point = value) : update function point value = function := by
  rw [← there, update_eq_self]

theorem setMeta_same {slot : Nat} {record : PoolMeta} {runtime : Runtime}
    (there : runtime.poolMeta slot = record) : setMeta slot record runtime = runtime := by
  rw [setMeta, update_same there]

/-- Both workers drop a value without a failed check and stay matched. -/
theorem drop_matches {internal : Internal.State} {external : External.State}
    (same : Matches cfg internal external) {slot : Nat} (inRange : slot < cfg.maxKeys) :
    ∃ after, run (Internal.dropHostValue cfg slot) internal = .finished () after ∧
      Matches cfg after (External.eraseHostValue cfg slot external) ∧
      Dropped slot internal after external (External.eraseHostValue cfg slot external) := by
  have backs := same.values slot
  cases stored : internal.hostValues slot with
  | none =>
    cases other : external.hostValues slot with
    | some _ => simp [stored, other, Backs] at backs
    | none =>
      have unchanged : External.eraseHostValue cfg slot external = external := by
        simp only [External.eraseHostValue, other, Option.bind_none, update_same other]
      refine ⟨internal, by simp [Internal.dropHostValue, stored], ?_, ?_⟩
      · rw [unchanged]
        exact same
      · exact ⟨stored, rfl, rfl, rfl, by rw [unchanged]⟩
  | some value =>
    cases other : external.hostValues slot with
    | none => simp [stored, other, Backs] at backs
    | some mirror =>
      rw [stored, other] at backs
      obtain ⟨sameLen, positive, source⟩ := backs
      cases leased : mirror.lease with
      | none =>
        rw [leased] at source
        obtain ⟨unpooled, -, -, record⟩ := source
        let after : Internal.State :=
          { internal with
            runtime := internal.runtime
            hostValues := update internal.hostValues slot none }
        have drops : run (Internal.dropHostValue cfg slot) internal = .finished () after := by
          simp only [Internal.dropHostValue, run_current_bind, stored, Internal.core]
          rw [run_within_bind (run_invalidateMeta inRange _), setMeta_same record]
          simp [unpooled, after]
        have erases : External.eraseHostValue cfg slot external =
            { runtime := { external.runtime with runtime := internal.runtime }
              hostValues := update external.hostValues slot none } := by
          simp [External.eraseHostValue, other, leased, same.runtime]
        refine ⟨after, drops, ?_, ?_⟩
        · rw [erases]
          exact same.put slot internal.runtime none none (fun _ _ => rfl) record
            (same.accounts.lose slot)
        · rw [erases]
          exact ⟨by simp [after], rfl, rfl, rfl, rfl⟩
      | some lease =>
        rw [leased] at source
        obtain ⟨pooled, units, isLease, generation, record⟩ := source
        subst isLease
        have holds : Internal.held internal.hostValues slot = some ⟨value.poolUnit, value.poolUnits⟩ := by
          simp [Internal.held, stored, Internal.HostValue.extent, Nat.pos_iff_ne_zero.mp units]
        have checked := same.accounts.checked holds
        let runtime : Runtime :=
          { setMeta slot noRecord internal.runtime with
            poolFree :=
              Pool.poolRelease ⟨value.poolUnit, value.poolUnits⟩ internal.runtime.poolFree }
        let after : Internal.State :=
          { internal with
            runtime := runtime
            hostValues := update internal.hostValues slot none }
        have drops : run (Internal.dropHostValue cfg slot) internal = .finished () after := by
          simp only [Internal.dropHostValue, run_current_bind, stored, Internal.core]
          rw [run_within_bind (run_invalidateMeta inRange _)]
          simp only [run_change_bind, ne_eq, Nat.pos_iff_ne_zero.mp units, not_false_eq_true, if_true]
          exact run_within (run_poolRelease checked)
        have released : External.releaseExternalHostLease cfg (leaseOf cfg slot value)
            internal.runtime = runtime := by
          have invalidates := run_invalidateMetaIfGeneration inRange generation record
          have releases : run (poolRelease cfg value.poolUnit value.poolUnits)
              (setMeta slot noRecord internal.runtime) = .finished () runtime :=
            run_poolRelease checked
          simp only [External.releaseExternalHostLease, leaseOf]
          rw [run_bind_finished invalidates, releases]
        have erases : External.eraseHostValue cfg slot external =
            { runtime := { external.runtime with runtime := runtime }
              hostValues := update external.hostValues slot none } := by
          simp only [External.eraseHostValue, other, Option.bind_some, leased, ← same.runtime,
            released]
        refine ⟨after, drops, ?_, ?_⟩
        · rw [erases]
          apply same.put slot runtime none none
          · intro another apart
            exact update_of_ne apart _ _
          · exact update_self ..
          · exact same.accounts.release holds
        · rw [erases]
          exact ⟨update_self .., rfl, rfl, rfl, rfl⟩

end KvCache.HostTransfer
