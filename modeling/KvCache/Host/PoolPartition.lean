import KvCache.Host.PoolMachine

/-!
# The pool is partitioned

Every unit of the pool is free or belongs to one holder: the host value of a slot, or
the write-through in flight. The first part is about any family of holders and the
operations of the free list. The second carries it along the runs of the pool machine.

A unit is lost in one way only: an exception leaves a write-through that holds an
extent. Cancelling and a failed lease give the extent back; the exception does not.
-/

namespace KvCache.Pool

open Function

/-! ## Holders of extents -/

universe u
variable {ι : Type u} {total : Nat} {free : List Extent} {held : ι → Option Extent}

/-- Free extents are apart and in range, and what is held is in range, not free and
held once. -/
structure Accounts (total : Nat) (free : List Extent) (held : ι → Option Extent) : Prop where
  positive : ∀ extent ∈ free, 0 < extent.units
  separated : Separated free
  inRange : ∀ unit, Covers free unit → unit < total
  heldPositive : ∀ holder extent, held holder = some extent → 0 < extent.units
  heldInRange : ∀ holder extent, held holder = some extent → extent.finish ≤ total
  notFree : ∀ holder extent unit, held holder = some extent → extent.Mem unit → ¬ Covers free unit
  once : ∀ first second extent other unit, held first = some extent → held second = some other →
    extent.Mem unit → other.Mem unit → first = second

/-- No unit is lost. -/
def Complete (total : Nat) (free : List Extent) (held : ι → Option Extent) : Prop :=
  ∀ unit < total, Covers free unit ∨ ∃ holder extent, held holder = some extent ∧ extent.Mem unit

theorem Accounts.ordered (accounts : Accounts total free held) : Ordered free :=
  accounts.separated.ordered accounts.positive

/-- A pool that nothing was taken from is one free extent, or none if it has no units. -/
theorem Accounts.initial (total : Nat) :
    Accounts total (if total = 0 then [] else [⟨0, total⟩]) (fun _ : ι => none) := by
  by_cases empty : total = 0
  · subst empty
    constructor <;> simp [Separated, Covers]
  · rw [if_neg empty]
    constructor
    · simpa using Nat.pos_of_ne_zero empty
    · exact List.pairwise_singleton _ _
    · simp [Covers, Extent.Mem, Extent.finish]
    all_goals simp

variable [DecidableEq ι]

/-- What a holder holds after an update. -/
theorem update_held {holder other : ι} {value : Option Extent} {extent : Extent}
    (holds : update held holder value other = some extent) :
    (other = holder ∧ value = some extent) ∨ (other ≠ holder ∧ held other = some extent) := by
  by_cases same : other = holder
  · subst same
    rw [update_self] at holds
    exact Or.inl ⟨rfl, holds⟩
  · rw [update_of_ne same] at holds
    exact Or.inr ⟨same, holds⟩

/-- A holder of nothing gets the extent that allocation returns. -/
theorem Accounts.allocate (accounts : Accounts total free held) {holder : ι} {units unit : Nat}
    {remaining : List Extent} (positive : 0 < units)
    (allocated : poolAlloc units free = some (unit, remaining)) :
    Accounts total remaining (update held holder (some ⟨unit, units⟩)) := by
  obtain ⟨ordered, -, covered⟩ := poolAlloc_spec accounts.ordered allocated
  have fromFree : ∀ other, (⟨unit, units⟩ : Extent).Mem other → Covers free other := fun other =>
    (covered other).2
  constructor
  · exact ordered.positive
  · exact poolAlloc_separated accounts.positive accounts.separated allocated
  · exact fun other free => accounts.inRange other ((covered other).1.mp free).1
  · intro other extent holds
    rcases update_held holds with ⟨-, same⟩ | ⟨-, before⟩
    · obtain rfl := Option.some.inj same
      exact positive
    · exact accounts.heldPositive other extent before
  · intro other extent holds
    rcases update_held holds with ⟨-, same⟩ | ⟨-, before⟩
    · obtain rfl := Option.some.inj same
      have last := accounts.inRange (unit + units - 1)
        (fromFree _ ⟨by simp only; omega, by simp only [Extent.finish]; omega⟩)
      simp only [Extent.finish]
      omega
    · exact accounts.heldInRange other extent before
  · intro other extent inside holds member free
    obtain ⟨stillFree, outside⟩ := (covered inside).1.mp free
    rcases update_held holds with ⟨-, same⟩ | ⟨-, before⟩
    · obtain rfl := Option.some.inj same
      exact outside member
    · exact accounts.notFree other extent inside before member stillFree
  · intro first second extent other inside holdsFirst holdsSecond inFirst inSecond
    rcases update_held holdsFirst with ⟨isFirst, same⟩ | ⟨-, before⟩ <;>
      rcases update_held holdsSecond with ⟨isSecond, same'⟩ | ⟨-, before'⟩
    · rw [isFirst, isSecond]
    · obtain rfl := Option.some.inj same
      exact absurd (fromFree inside inFirst) (accounts.notFree second other inside before' inSecond)
    · obtain rfl := Option.some.inj same'
      exact absurd (fromFree inside inSecond) (accounts.notFree first extent inside before inFirst)
    · exact accounts.once first second extent other inside before before' inFirst inSecond

theorem Complete.allocate (complete : Complete total free held) (ordered : Ordered free)
    {holder : ι} {units unit : Nat} {remaining : List Extent} (vacant : held holder = none)
    (allocated : poolAlloc units free = some (unit, remaining)) :
    Complete total remaining (update held holder (some ⟨unit, units⟩)) := by
  obtain ⟨-, -, covered⟩ := poolAlloc_spec ordered allocated
  intro other below
  by_cases taken : (⟨unit, units⟩ : Extent).Mem other
  · exact Or.inr ⟨holder, _, update_self .., taken⟩
  · rcases complete other below with free | ⟨owner, extent, holds, member⟩
    · exact Or.inl ((covered other).1.mpr ⟨free, taken⟩)
    · have different : owner ≠ holder := by
        rintro rfl
        rw [vacant] at holds
        exact nomatch holds
      exact Or.inr ⟨owner, extent, (update_of_ne different ..).trans holds, member⟩

/-- A holder loses what it holds, and nothing becomes free. -/
theorem Accounts.lose (accounts : Accounts total free held) (holder : ι) :
    Accounts total free (update held holder none) := by
  have before : ∀ other extent, update held holder none other = some extent →
      held other = some extent := by
    intro other extent holds
    rcases update_held holds with ⟨-, impossible⟩ | ⟨-, kept⟩
    · exact nomatch impossible
    · exact kept
  exact {
    positive := accounts.positive
    separated := accounts.separated
    inRange := accounts.inRange
    heldPositive := fun other extent holds =>
      accounts.heldPositive other extent (before other extent holds)
    heldInRange := fun other extent holds =>
      accounts.heldInRange other extent (before other extent holds)
    notFree := fun other extent unit holds =>
      accounts.notFree other extent unit (before other extent holds)
    once := fun first second extent other unit holdsFirst holdsSecond =>
      accounts.once first second extent other unit (before first extent holdsFirst)
        (before second other holdsSecond) }

/-- A holder gives its extent back. -/
theorem Accounts.release (accounts : Accounts total free held) {holder : ι} {extent : Extent}
    (holds : held holder = some extent) :
    Accounts total (poolRelease extent free) (update held holder none) := by
  have positive := accounts.heldPositive holder extent holds
  have outside := fun unit => accounts.notFree holder extent unit holds
  obtain ⟨ordered, covered⟩ := poolRelease_spec accounts.ordered positive outside
  have lost := accounts.lose holder
  constructor
  · exact ordered.positive
  · exact poolRelease_separated accounts.positive accounts.separated positive outside
  · intro unit free
    rcases (covered unit).mp free with member | before
    · exact Nat.lt_of_lt_of_le member.2 (accounts.heldInRange holder extent holds)
    · exact accounts.inRange unit before
  · exact lost.heldPositive
  · exact lost.heldInRange
  · intro other kept unit holdsOther member free
    rcases update_held holdsOther with ⟨-, impossible⟩ | ⟨different, before⟩
    · exact nomatch impossible
    · rcases (covered unit).mp free with inside | stillFree
      · exact different (accounts.once other holder kept extent unit before holds member inside)
      · exact accounts.notFree other kept unit before member stillFree
  · exact lost.once

theorem Complete.release (complete : Complete total free held)
    (accounts : Accounts total free held) {holder : ι} {extent : Extent}
    (holds : held holder = some extent) :
    Complete total (poolRelease extent free) (update held holder none) := by
  obtain ⟨-, covered⟩ := poolRelease_spec accounts.ordered
    (accounts.heldPositive holder extent holds) fun unit => accounts.notFree holder extent unit holds
  intro unit below
  rcases complete unit below with isFree | ⟨owner, other, holdsOther, member⟩
  · exact Or.inl ((covered unit).mpr (Or.inr isFree))
  · by_cases same : owner = holder
    · subst same
      obtain rfl := Option.some.inj (holds.symm.trans holdsOther)
      exact Or.inl ((covered unit).mpr (Or.inl member))
    · exact Or.inr ⟨owner, other, (update_of_ne same ..).trans holdsOther, member⟩

/-- A holder of nothing takes over what another holds. -/
theorem Accounts.transfer (accounts : Accounts total free held) {source target : ι}
    (different : source ≠ target) :
    Accounts total free (update (update held target (held source)) source none) := by
  -- Who held what a holder holds now.
  have former : ∀ other extent,
      update (update held target (held source)) source none other = some extent →
        ∃ owner, held owner = some extent ∧ other ≠ source ∧
          owner = if other = target then source else other := by
    intro other extent holds
    rcases update_held holds with ⟨-, impossible⟩ | ⟨notSource, kept⟩
    · exact nomatch impossible
    · rcases update_held kept with ⟨rfl, moved⟩ | ⟨notTarget, before⟩
      · exact ⟨source, moved, notSource, by simp⟩
      · exact ⟨other, before, notSource, by simp [notTarget]⟩
  constructor
  · exact accounts.positive
  · exact accounts.separated
  · exact accounts.inRange
  · intro other extent holds
    obtain ⟨owner, before, -⟩ := former other extent holds
    exact accounts.heldPositive owner extent before
  · intro other extent holds
    obtain ⟨owner, before, -⟩ := former other extent holds
    exact accounts.heldInRange owner extent before
  · intro other extent unit holds
    obtain ⟨owner, before, -⟩ := former other extent holds
    exact accounts.notFree owner extent unit before
  · intro first second extent other unit holdsFirst holdsSecond inFirst inSecond
    obtain ⟨owner, before, notSource, isOwner⟩ := former first extent holdsFirst
    obtain ⟨owner', before', notSource', isOwner'⟩ := former second other holdsSecond
    have same := accounts.once owner owner' extent other unit before before' inFirst inSecond
    grind

theorem Complete.transfer (complete : Complete total free held) {source target : ι}
    (different : source ≠ target) (vacant : held target = none) :
    Complete total free (update (update held target (held source)) source none) := by
  intro unit below
  rcases complete unit below with isFree | ⟨owner, extent, holds, member⟩
  · exact Or.inl isFree
  · by_cases fromSource : owner = source
    · subst fromSource
      exact Or.inr ⟨target, extent, by
        rw [update_of_ne different.symm, update_self]; exact holds, member⟩
    · have notTarget : owner ≠ target := by
        rintro rfl
        rw [vacant] at holds
        exact nomatch holds
      exact Or.inr ⟨owner, extent, by
        rw [update_of_ne fromSource, update_of_ne notTarget]; exact holds, member⟩

end KvCache.Pool

namespace KvCache.PoolMachine

open Layout Pool Function Run

variable {cfg : Config} {state after : State}

/-! ## Holders in the machine -/

/-- Who may hold an extent. -/
inductive Holder where
  | hostValue (slot : Nat)
  | writeThrough
deriving DecidableEq, Repr

/-- The lease of a holder. -/
def State.holding (state : State) : Holder → Option Lease
  | .hostValue slot => (state.hostValues slot).bind HostValue.lease
  | .writeThrough => state.reserved

/-- The extent of a holder. -/
def State.held (state : State) (holder : Holder) : Option Extent :=
  (state.holding holder).map Lease.extent

/-- What is held depends on the host values and the reserved extent only. -/
theorem held_congr (values : after.hostValues = state.hostValues)
    (reserved : after.reserved = state.reserved) : after.held = state.held := by
  funext holder
  cases holder <;> simp [State.held, State.holding, values, reserved]

theorem held_hostValues (state : State) (slot : Nat) (value : Option HostValue)
    (values : after.hostValues = update state.hostValues slot value)
    (reserved : after.reserved = state.reserved) :
    after.held =
      update state.held (.hostValue slot) ((value.bind HostValue.lease).map Lease.extent) := by
  funext holder
  cases holder with
  | hostValue other =>
    by_cases same : other = slot
    · subst same
      simp [State.held, State.holding, values]
    · have different : Holder.hostValue other ≠ .hostValue slot := by simpa using same
      simp [State.held, State.holding, values, update_of_ne same, update_of_ne different]
  | writeThrough => simp [State.held, State.holding, reserved]

theorem held_reserved (state : State) (lease : Option Lease) (values : after.hostValues = state.hostValues)
    (reserved : after.reserved = lease) :
    after.held = update state.held .writeThrough (lease.map Lease.extent) := by
  funext holder
  cases holder <;> simp [State.held, State.holding, values, reserved]

/-- The extent is one for a value of the slot. -/
structure Serves (lease : Lease) (slot : Nat) (value : List UInt8) : Prop where
  slot : lease.slot = slot
  len : lease.len = value.length
  units : lease.poolUnits = chunkCountFor value.length

/-- Which extents are held in which phase. -/
def Shape (cfg : Config) (state : State) : Prop :=
  match state.phase with
  | .idle | .closed | .dropping _ _ .done => state.reserved = none
  | .dropping _ _ (.reserve _) => state.reserved = none ∧ cfg.mode = .internal
  | .dropping slot _ (.replace value) =>
    cfg.mode = .external ∧ ∀ lease, state.reserved = some lease → Serves lease slot value
  | .dropping _ _ (.resume waiting value _) =>
    cfg.mode = .external ∧ ∀ lease, state.reserved = some lease → Serves lease waiting value
  | .publishing slot value _ =>
    (∃ lease, state.reserved = some lease ∧ Serves lease slot value) ∧
      (cfg.mode = .internal → state.hostValues slot = none)
  | .receiving slot value _ =>
    (∀ lease, state.reserved = some lease → Serves lease slot value) ∧
      (cfg.mode = .internal → state.hostValues slot = none)
  | .cancelling slot _ => ∃ lease, state.reserved = some lease ∧ lease.slot = slot

/-- The phase is as it should be, and the pool is accounted for. -/
structure Sound (cfg : Config) (state : State) : Prop where
  shape : Shape cfg state
  accounts : Accounts state.poolUnitsTotal state.poolFree state.held

/-- No unit of the pool is lost. -/
def Whole (state : State) : Prop := Complete state.poolUnitsTotal state.poolFree state.held

/-- Sound afterwards, and nothing lost on the way. -/
def Keeps (cfg : Config) (state after : State) : Prop := Sound cfg after ∧ (Whole state → Whole after)

/-- Sound and whole by what the holders hold afterwards. -/
theorem keeps_of {held : Holder → Option Extent} (same : after.held = held) (shape : Shape cfg after)
    (total : after.poolUnitsTotal = state.poolUnitsTotal)
    (accounts : Accounts state.poolUnitsTotal after.poolFree held)
    (complete : Whole state → Complete state.poolUnitsTotal after.poolFree held) :
    Keeps cfg state after := by
  subst same
  constructor
  · exact ⟨shape, total ▸ accounts⟩
  · intro whole
    unfold Whole
    rw [total]
    exact complete whole

/-- A change elsewhere. -/
theorem keeps_of_same (accounts : Accounts state.poolUnitsTotal state.poolFree state.held)
    (shape : Shape cfg after) (total : after.poolUnitsTotal = state.poolUnitsTotal)
    (free : after.poolFree = state.poolFree) (values : after.hostValues = state.hostValues)
    (reserved : after.reserved = state.reserved) : Keeps cfg state after := by
  apply keeps_of (held_congr values reserved) shape total
  · rw [free]
    exact accounts
  · rw [free]
    exact id

/-- The extent of a holder is released as the holder loses it. -/
theorem release_accounts (holder : Holder)
    (accounts : Accounts state.poolUnitsTotal state.poolFree state.held) :
    let free := match state.holding holder with
      | some lease => releaseExtent lease state.poolFree
      | none => state.poolFree
    Accounts state.poolUnitsTotal free (update state.held holder none) ∧
      (Whole state → Complete state.poolUnitsTotal free (update state.held holder none)) := by
  cases holds : state.holding holder with
  | none =>
    have nothing : state.held holder = none := by simp [State.held, holds]
    have same : update state.held holder none = state.held := by
      rw [← nothing]
      exact update_eq_self holder state.held
    simp only [same]
    exact ⟨accounts, id⟩
  | some lease =>
    have extent : state.held holder = some lease.extent := by simp [State.held, holds]
    have positive := accounts.heldPositive holder _ extent
    have nonempty : lease.poolUnits ≠ 0 := Nat.pos_iff_ne_zero.mp positive
    simp only [releaseExtent, if_neg nonempty]
    exact ⟨accounts.release extent, fun whole => Complete.release whole accounts extent⟩

/-- Erasing a host value releases its extent. -/
theorem eraseValue_accounts (slot : Nat)
    (accounts : Accounts state.poolUnitsTotal state.poolFree state.held) :
    Accounts (eraseValue slot state).poolUnitsTotal (eraseValue slot state).poolFree
        (eraseValue slot state).held ∧
      (Whole state → Whole (eraseValue slot state)) := by
  have held : (eraseValue slot state).held = update state.held (.hostValue slot) none :=
    held_hostValues state slot none rfl rfl
  have released := release_accounts (.hostValue slot) accounts
  unfold Whole
  rw [held]
  exact released

/-- Reserving takes an extent for the write-through, which held none. -/
theorem reserve_keeps {slot : Nat} {value : List UInt8} {prefersMapped : Bool}
    (accounts : Accounts state.poolUnitsTotal state.poolFree state.held)
    (vacant : state.reserved = none) (empty : cfg.mode = .internal → state.hostValues slot = none) :
    Keeps cfg state (reserve cfg slot value prefersMapped state) := by
  dsimp only [reserve]
  split
  · next failed =>
    have none : ∀ lease, state.reserved = some lease → Serves lease slot value := by
      intro lease reserved
      rw [vacant] at reserved
      exact nomatch reserved
    exact keeps_of_same accounts ⟨none, empty⟩ rfl rfl rfl rfl
  · next unit remaining found =>
    have units : ¬(prefersMapped = false ∨ chunkCountFor value.length = 0) := by
      intro none
      rw [if_pos none] at found
      exact nomatch found
    rw [if_neg units] at found
    have positive : 0 < chunkCountFor value.length := by omega
    have nothing : state.held .writeThrough = none := by simp [State.held, State.holding, vacant]
    refine keeps_of (held_reserved state _ rfl rfl) ⟨⟨_, rfl, ⟨rfl, rfl, rfl⟩⟩, empty⟩ rfl ?_ ?_
    · exact accounts.allocate positive found
    · exact fun whole => Complete.allocate whole accounts.ordered nothing found

/-- Keeping a value moves the reserved extent to the slot, which held none. -/
theorem keepValue_keeps {slot : Nat} {value : List UInt8}
    (accounts : Accounts state.poolUnitsTotal state.poolFree state.held)
    (vacant : (state.hostValues slot).bind HostValue.lease = none) :
    Keeps cfg state (keepValue slot value state) := by
  have nothing : state.held (.hostValue slot) = none := by
    simp [State.held, State.holding, vacant]
  dsimp only [keepValue]
  split
  · next lease reserved =>
    have different : Holder.writeThrough ≠ .hostValue slot := nofun
    have extent : state.held .writeThrough = some lease.extent := by
      simp [State.held, State.holding, reserved]
    refine keeps_of ?_ rfl rfl (accounts.transfer different)
      fun whole => Complete.transfer whole different nothing
    · rw [extent]
      funext holder
      cases holder with
      | hostValue other =>
        by_cases same : other = slot
        · subst same
          simp [State.held, State.holding, HostValue.lease]
        · have apart : Holder.hostValue other ≠ .hostValue slot := by simpa using same
          simp [State.held, State.holding, update_of_ne same, update_of_ne apart]
      | writeThrough => simp [State.held, State.holding]
  · next reserved =>
    have held : update state.held (.hostValue slot) none = state.held := by
      rw [← nothing]
      exact update_eq_self _ _
    have same : ∀ next : State, next.hostValues = update state.hostValues slot (some (.heap value)) →
        next.reserved = state.reserved → next.held = state.held := fun next values kept =>
      (held_hostValues state slot _ values kept).trans held
    exact keeps_of (same _ rfl rfl) reserved rfl accounts id

/-! ## Steps -/

/-- Nothing is left of a host value that is erased. -/
@[simp] theorem eraseValue_hostValues (slot : Nat) (state : State) :
    (eraseValue slot state).hostValues = update state.hostValues slot none := rfl

@[simp] theorem eraseValue_reserved (slot : Nat) (state : State) :
    (eraseValue slot state).reserved = state.reserved := rfl

theorem finishDrop_keeps {slot : Nat} {stores : List Store} {next : AfterDrop}
    (sound : Sound cfg state) (dropping : state.phase = .dropping slot stores next) :
    Keeps cfg state (finishDrop cfg slot next state) := by
  obtain ⟨accounts, whole⟩ := eraseValue_accounts slot sound.accounts
  have shape := sound.shape
  simp only [Shape, dropping] at shape
  cases next with
  | done =>
    have done : Keeps cfg (eraseValue slot state) (finishDrop cfg slot .done state) :=
      keeps_of_same accounts shape rfl rfl rfl rfl
    exact ⟨done.1, done.2 ∘ whole⟩
  | reserve value =>
    have reserved : Keeps cfg (eraseValue slot state) (finishDrop cfg slot (.reserve value) state) :=
      reserve_keeps accounts shape.1 fun _ => update_self ..
    exact ⟨reserved.1, reserved.2 ∘ whole⟩
  | replace value =>
    have vacant : ((eraseValue slot state).hostValues slot).bind HostValue.lease = none := by simp
    have replaced : Keeps cfg (eraseValue slot state) (finishDrop cfg slot (.replace value) state) :=
      keepValue_keeps accounts vacant
    exact ⟨replaced.1, replaced.2 ∘ whole⟩
  | resume waiting value pushed =>
    have external : cfg.mode = .internal → (eraseValue slot state).hostValues waiting = none :=
      fun internal => (nomatch internal.symm.trans shape.1)
    have resumed : Keeps cfg (eraseValue slot state)
        (finishDrop cfg slot (.resume waiting value pushed) state) :=
      keeps_of_same accounts ⟨shape.2, external⟩ rfl rfl rfl rfl
    exact ⟨resumed.1, resumed.2 ∘ whole⟩

theorem finishCancel_keeps (accounts : Accounts state.poolUnitsTotal state.poolFree state.held) :
    Keeps cfg state (finishCancel state) := by
  obtain ⟨released, complete⟩ := release_accounts .writeThrough accounts
  exact keeps_of (held_reserved state none rfl rfl) rfl rfl released complete

theorem advance_keeps (sound : Sound cfg state) (taken : advance cfg state = some after) :
    Keeps cfg state after := by
  have shape := sound.shape
  unfold advance at taken
  split at taken
  · next slot store rest next dropping =>
    obtain rfl := Option.some.inj taken
    refine keeps_of_same sound.accounts ?_ rfl rfl rfl rfl
    simp only [Shape, dropping] at shape ⊢
    cases next <;> exact shape
  · next slot next dropping =>
    obtain rfl := Option.some.inj taken
    exact finishDrop_keeps sound dropping
  · next slot value store publishing =>
    obtain rfl := Option.some.inj taken
    refine keeps_of_same sound.accounts ?_ rfl rfl rfl rfl
    simp only [Shape, publishing] at shape
    obtain ⟨⟨lease, reserved, serves⟩, empty⟩ := shape
    refine ⟨fun other same => ?_, empty⟩
    obtain rfl := Option.some.inj (reserved.symm.trans same)
    exact serves
  · next slot value store rest _ publishing =>
    obtain rfl := Option.some.inj taken
    refine keeps_of_same sound.accounts ?_ rfl rfl rfl rfl
    simp only [Shape, publishing] at shape ⊢
    exact shape
  · next slot store rest cancelling =>
    obtain rfl := Option.some.inj taken
    refine keeps_of_same sound.accounts ?_ rfl rfl rfl rfl
    simp only [Shape, cancelling] at shape ⊢
    exact shape
  · obtain rfl := Option.some.inj taken
    exact finishCancel_keeps sound.accounts
  · exact nomatch taken

theorem push_keeps (sound : Sound cfg state) (taken : push state = some after) :
    Keeps cfg state after := by
  have shape := sound.shape
  unfold push at taken
  split at taken
  · next slot value pushed lease receiving reserved =>
    split at taken
    · obtain rfl := Option.some.inj taken
      refine keeps_of_same sound.accounts ?_ rfl rfl rfl rfl
      simpa only [Shape, receiving] using shape
    · exact nomatch taken
  · exact nomatch taken

theorem complete_keeps (sound : Sound cfg state) (taken : complete cfg state = some after) :
    Keeps cfg state after := by
  have shape := sound.shape
  unfold complete at taken
  split at taken
  · next slot value pushed receiving =>
    simp only [Shape, receiving] at shape
    split at taken
    · exact nomatch taken
    · split at taken
      · next replaces =>
        obtain rfl := Option.some.inj taken
        exact keeps_of_same sound.accounts ⟨replaces.1, shape.1⟩ rfl rfl rfl rfl
      · next vacant =>
        obtain rfl := Option.some.inj taken
        apply keepValue_keeps sound.accounts
        cases mode : cfg.mode with
        | internal => rw [shape.2 mode]; rfl
        | external =>
          have absent : state.hostValues slot = none := by
            simpa [mode] using vacant
          rw [absent]
          rfl
  · exact nomatch taken

theorem cancel_keeps (sound : Sound cfg state) (taken : cancel state = some after) :
    Keeps cfg state after := by
  have shape := sound.shape
  unfold cancel at taken
  split at taken
  · next slot value pushed receiving =>
    simp only [Shape, receiving] at shape
    split at taken
    · next holds =>
      obtain rfl := Option.some.inj taken
      obtain ⟨lease, reserved⟩ := Option.isSome_iff_exists.mp holds
      exact keeps_of_same sound.accounts ⟨lease, reserved, (shape.1 lease reserved).slot⟩ rfl rfl
        rfl rfl
    · next vacant =>
      obtain rfl := Option.some.inj taken
      have none : state.reserved = none := by simpa using vacant
      exact keeps_of_same sound.accounts none rfl rfl rfl rfl
  · exact nomatch taken

theorem abandon_keeps (sound : Sound cfg state) (taken : abandon state = some after) :
    Keeps cfg state after := by
  have shape := sound.shape
  unfold abandon at taken
  split at taken
  · next slot value pushed lease receiving reserved =>
    simp only [Shape, receiving] at shape
    obtain rfl := Option.some.inj taken
    exact keeps_of_same sound.accounts ⟨lease, reserved, (shape.1 lease reserved).slot⟩ rfl rfl rfl
      rfl
  · exact nomatch taken

/-- An exception loses the reserved extent, if there is one. -/
theorem throw_keeps (sound : Sound cfg state) (taken : throw state = some after) :
    Sound cfg after ∧ (state.reserved = none → Whole state → Whole after) := by
  have lost : after = { state with reserved := none, phase := .idle, stopped := true } := by
    unfold throw at taken
    split at taken
    · exact (Option.some.inj taken).symm
    · exact (Option.some.inj taken).symm
    · exact nomatch taken
  have held : after.held = update state.held .writeThrough none := by
    rw [lost]
    exact held_reserved state none rfl rfl
  subst lost
  constructor
  · exact ⟨rfl, held ▸ sound.accounts.lose .writeThrough⟩
  · intro vacant whole
    have nothing : state.held .writeThrough = none := by simp [State.held, State.holding, vacant]
    unfold Whole
    rw [held, ← nothing, update_eq_self]
    exact whole

theorem close_keeps (sound : Sound cfg state) (taken : close cfg state = some after) :
    Keeps cfg state after := by
  have shape := sound.shape
  unfold close at taken
  split at taken
  · next closing =>
    obtain rfl := Option.some.inj taken
    simp only [Shape, closing.1] at shape
    have nothing : ∀ next : State, next.hostValues = (fun _ => none) → next.reserved = none →
        next.held = fun _ => none := by
      intro next values reserved
      funext holder
      cases holder <;> simp [State.held, State.holding, values, reserved]
    have held := nothing { state with
      poolFree := [], poolUnitsTotal := 0, hostValues := fun _ => none, entries := fun _ => none,
      received := [], phase := .closed } rfl shape
    constructor
    · refine ⟨shape, ?_⟩
      rw [held]
      constructor <;> simp [Covers, Separated]
    · intro _
      unfold Whole
      rw [held]
      exact fun unit below => absurd below (Nat.not_lt_zero unit)
  · cases taken

/-- Every step keeps the pool accounted for, and one that does not throw while an
extent is reserved loses no unit. -/
theorem step_keeps {action : Action} (sound : Sound cfg state)
    (taken : step cfg state action = some after) :
    Sound cfg after ∧
      ((action = .throw → state.reserved = none) → Whole state → Whole after) := by
  have plain : Keeps cfg state after → Sound cfg after ∧
      ((action = .throw → state.reserved = none) → Whole state → Whole after) :=
    fun keeps => ⟨keeps.1, fun _ => keeps.2⟩
  have shape := sound.shape
  cases action with
  | erase slot =>
    apply plain
    simp only [step, erase] at taken
    split at taken
    · next idle =>
      simp only [Shape, idle] at shape
      split at taken
      · exact nomatch taken
      · obtain rfl := Option.some.inj taken
        exact keeps_of_same sound.accounts shape rfl rfl rfl rfl
    · next waiting value pushed receiving =>
      simp only [Shape, receiving] at shape
      split at taken
      · exact nomatch taken
      · next external =>
        obtain rfl := Option.some.inj taken
        refine keeps_of_same sound.accounts ⟨?_, shape.1⟩ rfl rfl rfl rfl
        cases mode : cfg.mode with
        | internal => exact absurd mode external
        | external => rfl
    · exact nomatch taken
  | writeThrough slot value prefersMapped =>
    apply plain
    simp only [step, writeThrough] at taken
    split at taken
    · next idle =>
      simp only [Shape, idle.1] at shape
      split at taken
      · next internal =>
        obtain rfl := Option.some.inj taken
        exact keeps_of_same sound.accounts ⟨shape, internal⟩ rfl rfl rfl rfl
      · next external =>
        obtain rfl := Option.some.inj taken
        apply reserve_keeps sound.accounts shape
        intro internal
        rw [external] at internal
        exact nomatch internal
    · exact nomatch taken
  | advance => exact plain (advance_keeps sound taken)
  | push => exact plain (push_keeps sound taken)
  | complete => exact plain (complete_keeps sound taken)
  | cancel => exact plain (cancel_keeps sound taken)
  | abandon => exact plain (abandon_keeps sound taken)
  | throw =>
    obtain ⟨kept, whole⟩ := throw_keeps sound taken
    exact ⟨kept, fun vacant => whole (vacant rfl)⟩
  | commit entry =>
    apply plain
    simp only [step] at taken
    split at taken
    · obtain rfl := Option.some.inj taken
      exact keeps_of_same sound.accounts shape rfl rfl rfl rfl
    · exact nomatch taken
  | forget slot =>
    obtain rfl := Option.some.inj taken
    exact plain (keeps_of_same sound.accounts shape rfl rfl rfl rfl)
  | close => exact plain (close_keeps sound taken)

/-! ## Runs -/

/-- A pool that nothing was taken from is accounted for, and whole. -/
theorem start_keeps (cfg : Config) : Sound cfg (start cfg) ∧ Whole (start cfg) := by
  have nothing : (start cfg).held = fun _ => none := by
    funext holder
    cases holder <;> rfl
  have covers : ∀ unit, Covers (start cfg).poolFree unit ↔ unit < cfg.poolUnits := by
    intro unit
    by_cases empty : cfg.poolUnits = 0 <;> simp [start, empty, Covers, Extent.Mem, Extent.finish]
  have accounts : Accounts cfg.poolUnits (start cfg).poolFree (start cfg).held := by
    rw [nothing]
    exact Accounts.initial cfg.poolUnits
  exact ⟨⟨rfl, accounts⟩, fun unit below => Or.inl ((covers unit).mpr below)⟩

/-- No exception leaves a write-through that holds an extent. -/
def Returns (state : State) (action : Action) : Prop := action = .throw → state.reserved = none

/-- The free extents are not empty, in range, apart and never adjacent, and every unit
of the pool is free or has exactly one holder. -/
structure Partition (state : State) : Prop where
  nonempty : ∀ extent ∈ state.poolFree, 0 < extent.units
  inRange : ∀ extent ∈ state.poolFree, extent.finish ≤ state.poolUnitsTotal
  separated : Separated state.poolFree
  heldInRange : ∀ holder lease, state.holding holder = some lease →
    lease.extent.finish ≤ state.poolUnitsTotal
  exactlyOne : ∀ unit < state.poolUnitsTotal,
    (Covers state.poolFree unit ∧
      ∀ holder lease, state.holding holder = some lease → ¬ lease.extent.Mem unit) ∨
    (¬ Covers state.poolFree unit ∧
      ∃! holder, ∃ lease, state.holding holder = some lease ∧ lease.extent.Mem unit)

/-- Accounts of a whole pool are a partition. -/
theorem partition_of (accounts : Accounts state.poolUnitsTotal state.poolFree state.held)
    (whole : Whole state) : Partition state := by
  have held : ∀ {holder lease}, state.holding holder = some lease →
      state.held holder = some lease.extent := by
    intro holder lease holds
    simp [State.held, holds]
  constructor
  · exact accounts.positive
  · intro extent member
    have positive := accounts.positive extent member
    have last := accounts.inRange (extent.finish - 1)
      ⟨extent, member, by simp only [Extent.finish]; omega, by simp only [Extent.finish]; omega⟩
    omega
  · exact accounts.separated
  · exact fun holder lease holds => accounts.heldInRange holder _ (held holds)
  · intro unit below
    by_cases isFree : Covers state.poolFree unit
    · exact Or.inl ⟨isFree, fun holder lease holds member =>
        accounts.notFree holder _ unit (held holds) member isFree⟩
    · rcases whole unit below with covered | ⟨owner, extent, holds, member⟩
      · exact absurd covered isFree
      · obtain ⟨lease, holding, rfl⟩ := Option.map_eq_some_iff.mp holds
        refine Or.inr ⟨isFree, owner, ⟨lease, holding, member⟩, ?_⟩
        rintro other ⟨lease', holding', member'⟩
        exact accounts.once other owner _ _ unit (held holding') holds member' member

/-- Host-pool accounting over whole runs: as long as no exception leaves a write-through
that holds an extent, the pool is partitioned in every state reached.

Proof: accounts and wholeness of the pool are an inductive invariant, by one lemma for
each operation of the free list. -/
theorem pool_partitioned {trace : List Empty}
    (run : Run (TakesWhere (move cfg) Returns) (start cfg) trace state) : Partition state := by
  obtain ⟨sound, whole⟩ := start_keeps cfg
  have invariant := run.invariant (fun state => Sound cfg state ∧ Whole state) ⟨sound, whole⟩ <| by
    rintro before events after ⟨sound, whole⟩ ⟨action, returns, taken⟩
    obtain ⟨next, stepped, same⟩ := Option.map_eq_some_iff.mp taken
    obtain ⟨rfl, -⟩ := Prod.mk.inj same
    obtain ⟨kept, still⟩ := step_keeps sound stepped
    exact ⟨kept, still returns whole⟩
  exact partition_of invariant.1.accounts invariant.2

/-- An external worker over a pool of four units. -/
def fourUnits : Config := ⟨.external, 1, 4096, 4⟩

/-- A write-through in flight holds the first unit of the pool. -/
theorem pool_partitioned_reserved : ∃ trace state,
    Run (TakesWhere (move fourUnits) Returns) (start fourUnits) trace state ∧
      (state.reserved.map Lease.extent) = some ⟨0, 1⟩ ∧ Partition state := by
  have run : Run (TakesWhere (move fourUnits) Returns) (start fourUnits) _ _ :=
    .next .start ⟨.writeThrough 0 [7] true, nofun, rfl⟩
  exact ⟨_, _, run, rfl, pool_partitioned run⟩

/-- An exception while the device pushes leaves the first unit neither free nor held. -/
theorem exception_loses_extent : ∃ trace state,
    Run (Takes (move fourUnits)) (start fourUnits) trace state ∧
      0 < state.poolUnitsTotal ∧ ¬ Covers state.poolFree 0 ∧
      ∀ holder, state.holding holder = none := by
  have run : Run (Takes (move fourUnits)) (start fourUnits) _ _ :=
    .next (.next .start ⟨.writeThrough 0 [7] true, rfl⟩) ⟨.throw, rfl⟩
  refine ⟨_, _, run, by decide, ?_, ?_⟩
  · rintro ⟨extent, member, first, -⟩
    have single : extent = ⟨1, 3⟩ := List.mem_singleton.mp member
    rw [single] at first
    exact absurd first (by decide)
  · rintro (slot | _) <;> rfl

end KvCache.PoolMachine
