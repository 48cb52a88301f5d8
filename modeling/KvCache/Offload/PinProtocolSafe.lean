import KvCache.Offload.PinAccount

/-!
# The pin protocol is kept by orderly calls

While calls are orderly the position of a set in the queue tells the call that pinned it: the
ledger is the queue with each set dated from its end. So the delay, which the code counts by
the length of the queue, is the number of calls whose scan did not raise.
-/

namespace KvCache.Offload

open Function Run

variable {settings : Settings} {state after : State}

/-! ## Dates -/

/-- The ledger of a queue whose sets were pinned by consecutive calls, the last by this one. -/
def stamps (clock : Nat) : List (List Nat) → List (Nat × Nat)
  | [] => []
  | set :: rest => set.map (·, clock - rest.length) ++ stamps clock rest

theorem stamps_snoc (clock : Nat) (fifo : List (List Nat)) (set : List Nat) :
    stamps (clock + 1) (fifo ++ [set]) = stamps clock fifo ++ set.map (·, clock + 1) := by
  induction fifo with
  | nil => simp [stamps]
  | cons first rest inductionHypothesis =>
    simp [stamps, inductionHypothesis, Nat.add_sub_add_right]

/-- No reference is older than the queue is long. -/
theorem stamps_age {clock block time : Nat} {fifo : List (List Nat)}
    (dated : (block, time) ∈ stamps clock fifo) : clock < time + fifo.length := by
  induction fifo with
  | nil => simp [stamps] at dated
  | cons set rest inductionHypothesis =>
    rw [stamps, List.mem_append] at dated
    rw [List.length_cons]
    rcases dated with first | later
    · obtain ⟨_, _, same⟩ := List.mem_map.mp first
      have oldest : clock - rest.length = time := congrArg Prod.snd same
      omega
    · have age := inductionHypothesis later
      omega

theorem stamps_map (clock : Nat) (fifo : List (List Nat)) :
    (stamps clock fifo).map (·.1) = fifo.flatten := by
  induction fifo with
  | nil => rfl
  | cons set rest inductionHypothesis =>
    simp [stamps, inductionHypothesis, Function.comp_def]

/-- The ledger without its first sets. -/
theorem stamps_drop (clock : Nat) (front back : List (List Nat)) :
    (stamps clock (front ++ back)).drop front.flatten.length = stamps clock back := by
  induction front with
  | nil => rfl
  | cons set front inductionHypothesis =>
    rw [List.cons_append, stamps, List.flatten_cons, List.length_append, ← List.drop_drop,
      List.drop_left' (List.length_map _), inductionHypothesis]

/-- A reference that is not due at the next call is not among those that it frees. -/
theorem stamps_undue {clock delay block time : Nat} {fifo : List (List Nat)}
    (young : fifo.length ≤ clock) (short : fifo.length ≤ delay)
    (dated : (block, time) ∈ stamps clock fifo) (recent : clock + 1 < time + delay) :
    (block, time) ∈ stamps clock (undue delay fifo) := by
  cases fifo with
  | nil => exact nomatch dated
  | cons old rest =>
    rw [List.length_cons] at young short
    rw [stamps, List.mem_append] at dated
    rcases Nat.lt_or_ge (rest.length + 1) delay with room | full
    · have none_due : (old :: rest).length + 1 - delay = 0 := by
        rw [List.length_cons]
        omega
      rwa [undue, none_due, List.drop_zero, stamps, List.mem_append]
    · have one_due : (old :: rest).length + 1 - delay = 1 := by
        rw [List.length_cons]
        omega
      rw [undue, one_due]
      rcases dated with first | later
      · obtain ⟨_, _, same⟩ := List.mem_map.mp first
        have oldest : clock - rest.length = time := congrArg Prod.snd same
        omega
      · exact later

theorem stamps_empty {clock : Nat} {fifo : List (List Nat)} (empty : fifo.flatten = []) :
    stamps clock fifo = [] := by
  rw [← List.map_eq_nil_iff (f := Prod.fst), stamps_map, empty]

/-! ## Orderly calls keep the dates -/

/-- The queue of pinned sets tells the call of each reference, and shipped blocks are in it. -/
structure Dated (settings : Settings) (state : State) : Prop where
  dated : state.account.ledger = stamps state.account.clock state.observer.pinFifo
  held : ∀ block time, (block, time) ∈ state.account.shipped →
    state.account.clock < time + settings.pinFreeDelay → (block, time) ∈ state.account.ledger

theorem dated_start (settings : Settings) (numGpuBlocks : Nat) :
    Dated settings (start numGpuBlocks) where
  dated := rfl
  held _ _ member := nomatch member

/-- What a scan leaves is dated as before, and has all that is not due at the next call. -/
theorem Dated.scanned (kept : Dated settings state) (accounted : Accounted settings state) :
    (afterScan settings state).account.ledger =
        stamps state.account.clock (afterScan settings state).observer.pinFifo ∧
      ∀ block time, (block, time) ∈ state.account.shipped →
        state.account.clock + 1 < time + settings.pinFreeDelay →
        (block, time) ∈ (afterScan settings state).account.ledger := by
  obtain ⟨_, _, fifo, ledger, _⟩ := accounted.scanned
  have split : due settings.pinFreeDelay state.observer.pinFifo ++
      undue settings.pinFreeDelay state.observer.pinFifo = state.observer.pinFifo :=
    List.take_append_drop _ _
  have dated : (afterScan settings state).account.ledger =
      stamps state.account.clock (afterScan settings state).observer.pinFifo := by
    have dropped := stamps_drop state.account.clock
      (due settings.pinFreeDelay state.observer.pinFifo)
      (undue settings.pinFreeDelay state.observer.pinFifo)
    rw [split] at dropped
    rw [ledger, fifo, kept.dated, dropped]
  refine ⟨dated, ?_⟩
  intro block time shipped recent
  have present := kept.held block time shipped (Nat.lt_of_succ_lt recent)
  rw [kept.dated] at present
  rw [dated, fifo]
  exact stamps_undue accounted.young accounted.short present recent

/-- What `Orderly` says of a scan that does not raise. -/
theorem orderly_scans {call : Call} (scans : call.scan ≠ .raises)
    (orderly : Orderly settings state (.buildConnectorMeta call)) :
    (state.lazyStoreDisabled = true →
      (undue settings.pinFreeDelay state.observer.pinFifo).flatten = []) ∧
    (state.lazyStoreDisabled = false → call.touches = false → ∀ selected,
      (step settings call.scan state).2 = some selected →
        resolve call.sideTable selected = []) := by
  obtain ⟨sideTable, scan, touches⟩ := call
  cases scan with
  | raises => exact absurd rfl scans
  | absent | walks =>
    rw [Orderly] at orderly
    dsimp only at orderly
    split at orderly
    · next disabled => exact ⟨fun _ => orderly, fun enabled => absurd (disabled.symm.trans enabled) nofun⟩
    · next enabled =>
      refine ⟨fun disabled => absurd disabled enabled, fun _ fails => ?_⟩
      exact orderly.resolve_left fun touches => absurd (touches.symm.trans fails) nofun

/-- An orderly call keeps the dates.

Proof: by the way it ends. A scan that raises frees empty sets only, so the ledger stays; one
that does not moves the clock by one and every set of the queue by one place, unless the store
is disabled, and then no reference is left to date. What is shipped was touched by this call. -/
theorem Dated.buildConnectorMeta (kept : Dated settings state)
    (accounted : Accounted settings state) (enabled : settings.pinEnabled = true) {call : Call}
    (orderly : Orderly settings state (.buildConnectorMeta call)) :
    Dated settings (ship (buildConnectorMeta settings call state).2
      (buildConnectorMeta settings call state).1) := by
  obtain ⟨freed, room, fifo, ledger, clock, shipped⟩ := accounted.scanned
  obtain ⟨dated, held⟩ := kept.scanned accounted
  rcases buildConnectorMeta_cases enabled call state with ⟨never, specs, nothing, answered⟩ |
    ⟨_, raises, answered⟩ | ⟨_, scans, disabled, answered⟩ |
    ⟨bound, scans, able, selected, selects, found, answered⟩
  · have empty := accounted.unbound never
    rw [answered]
    constructor
    · have none_kept := kept.dated
      rw [empty] at none_kept
      change state.account.ledger = stamps (state.account.clock + 1) state.observer.pinFifo
      rw [none_kept, empty]
      rfl
    · intro block time member recent
      simp only [ship, nothing, List.map_nil, List.append_nil] at member
      exact kept.held block time member (Nat.lt_of_succ_lt recent)
  · have none_due : (due settings.pinFreeDelay state.observer.pinFifo).flatten = [] := by
      rwa [Orderly, raises] at orderly
    rw [none_due] at ledger
    rw [answered]
    constructor
    · change (afterScan settings state).account.ledger =
        stamps (afterScan settings state).account.clock (afterScan settings state).observer.pinFifo
      rw [clock, dated]
    · intro block time member recent
      simp only [ship, Option.getD_none, List.map_nil, List.append_nil, shipped] at member
      change _ ∈ (afterScan settings state).account.ledger
      rw [ledger]
      exact kept.held block time member (by rw [← clock]; exact recent)
  · have none_left := (orderly_scans scans orderly).1 disabled
    have none_listed := dated
    rw [fifo, stamps_empty none_left] at none_listed
    rw [answered]
    constructor
    · change (afterScan settings state).account.ledger = stamps _ (afterScan settings state).observer.pinFifo
      rw [none_listed, fifo, stamps_empty none_left]
    · intro block time member recent
      simp only [ship, succeed, Option.getD_none, List.map_nil, List.append_nil, shipped] at member
      exact held block time member (by rw [← clock]; exact recent)
  · rw [answered]
    have reader : (succeed (afterScan settings state)).observer.bound = true :=
      (freeExpiredPins_bound _ _ _).trans bound
    have nothing := (orderly_scans scans orderly).2 able
    obtain ⟨_, _, apart⟩ := freed.succeed.resolved call.sideTable found
    rcases pin_cases enabled call.touches reader fun block member pinned =>
      apart block member ((freed.marked block).mp pinned) with
      ⟨untouched, ended⟩ | ⟨pinned, touched, ended⟩
    · have none_shipped : resolve call.sideTable selected = [] := by
        rcases untouched with none_resolved | fails
        · exact List.map_eq_nil_iff.mp none_resolved
        · exact nothing fails selected selects
      rw [ended, none_shipped]
      constructor
      · simp only [ship, recordPins, succeed]
        rw [dated, clock, stamps_snoc, List.map_nil, List.append_nil]
      · intro block time member recent
        simp only [ship, recordPins, succeed, Option.getD_some, List.map_nil, List.append_nil,
          shipped, clock] at member recent
        exact held block time member recent
    · simp only [touchBlocks, if_true, Option.some.injEq] at touched
      subst touched
      rw [ended]
      constructor
      · simp only [ship, recordPins, succeed]
        rw [dated, clock, stamps_snoc]
      · intro block time member recent
        simp only [ship, recordPins, succeed, Option.getD_some, shipped, clock,
          List.mem_append] at member recent ⊢
        rcases member with old | new
        · exact Or.inl (held block time old recent)
        · right
          simpa [Function.comp_def] using new

theorem Dated.move (kept : Dated settings state) (accounted : Accounted settings state)
    (enabled : settings.pinEnabled = true) {action : Action} {events : List Empty}
    (orderly : Orderly settings state action)
    (moved : move settings state action = some (after, events)) : Dated settings after := by
  cases action with
  | buildConnectorMeta call =>
    obtain ⟨rfl, _⟩ := Prod.mk.inj (Option.some.inj moved)
    exact kept.buildConnectorMeta accounted enabled orderly
  | release block =>
    rw [Offload.move] at moved
    split at moved
    · obtain ⟨rfl, _⟩ := Prod.mk.inj (Option.some.inj moved)
      exact ⟨kept.dated, kept.held⟩
    · cases moved
  | bindGpuBlockPool | disableLazyStore | acquire block | cache block hash =>
    obtain ⟨rfl, _⟩ := Prod.mk.inj (Option.some.inj moved)
    exact ⟨kept.dated, kept.held⟩

/-! ## The protocol -/

/-- The account of the references and the dates give the protocol. -/
theorem Accounted.pinProtocol (accounted : Accounted settings state)
    (kept : Dated settings state) : PinProtocol settings state where
  held := kept.held
  referenced block := by rw [accounted.listed, accounted.referenced]
  balanced block := by rw [accounted.listed, accounted.balanced]
  once := by rw [accounted.listed]; exact accounted.distinct
  timely block time member := by
    rw [kept.dated] at member
    exact Nat.lt_of_lt_of_le (stamps_age member) (Nat.add_le_add_left accounted.short time)
  bounded := accounted.bounded
  returned := accounted.returned

/-- The steps of the scheduler that are orderly. -/
abbrev OrderlySteps (settings : Settings) : State → List Empty → State → Prop :=
  TakesWhere (move settings) (Orderly settings)

/-- With pins enabled, a run whose calls are orderly keeps the pin protocol.

Proof: the account is kept by every step and the dates by every orderly one; together they give
the protocol in every state reached. -/
theorem pins_outlast_reads (enabled : settings.pinEnabled = true) {numGpuBlocks : Nat}
    {events : List Empty}
    (run : Run (OrderlySteps settings) (start numGpuBlocks) events state) :
    PinProtocol settings state := by
  have both := run.invariant (fun state => Accounted settings state ∧ Dated settings state)
    ⟨accounted_start settings numGpuBlocks, dated_start settings numGpuBlocks⟩
    fun _ _ _ ⟨accounted, kept⟩ ⟨_, orderly, moved⟩ =>
      ⟨accounted.move enabled moved, kept.move accounted enabled orderly moved⟩
  exact both.1.pinProtocol both.2

/-- With pins enabled, the books of the pins are right in every run, also after calls that are
not orderly: a block has the references of others and one for each set that pins it; what was
touched was freed or is pinned; no block is pinned twice or pinned while it is free; the pins
are as few as the delay allows; and dropping them all leaves the references of others. -/
theorem pins_accounted (enabled : settings.pinEnabled = true) {numGpuBlocks : Nat}
    {events : List Empty} (run : Run (Scheduled settings) (start numGpuBlocks) events state) :
    (∀ block, state.pool.refCnt block =
      state.account.others block + state.observer.pinFifo.flatten.count block) ∧
    (∀ block, state.account.touched block =
      state.account.freed block + state.observer.pinFifo.flatten.count block) ∧
    state.observer.pinFifo.flatten.Nodup ∧
    (∀ block ∈ state.pool.freeQueue, block ∉ state.observer.pinFifo.flatten) ∧
    state.observer.pinFifo.flatten.length ≤ settings.pinFreeDelay * settings.maxPin ∧
    (unpinAll state).account.freed = (unpinAll state).account.touched ∧
    (unpinAll state).pool.refCnt = state.account.others := by
  have accounted := accounted_reached enabled run
  obtain ⟨-, returned, others⟩ := accounted.returned
  refine ⟨accounted.referenced, accounted.balanced, accounted.distinct, fun block free pinned => ?_,
    ?_, returned, others⟩
  · have references := accounted.referenced block
    have unreferenced : state.pool.refCnt block = 0 := accounted.idle block free
    have counted : 0 < state.observer.pinFifo.flatten.count block := List.count_pos_iff.mpr pinned
    omega
  · have bounded := accounted.bounded
    rwa [← List.length_map (·.1), accounted.listed] at bounded

/-! ## Fixed runs -/

/-- One block within the watermark and a delay of two calls. -/
def narrow : Settings := .init [] 0 true true 2 (some 1)

/-- A call that finds a key for every block. -/
def keyed (scan : Scan) (touches : Bool) : Action :=
  .buildConnectorMeta ⟨fun _ => some "key", scan, touches⟩

/-- A pool of one cached block that nobody uses. -/
def cached : List Action := [.bindGpuBlockPool, .cache 1 (some [7])]

/-- The block is pinned for the calls that may read it. -/
theorem pins_outlast_reads_once : ∃ state,
    Run.execute (move narrow) (start 2) (cached ++ [keyed .walks true]) = some (state, []) ∧
      state.account.shipped = [(1, 1)] ∧ PinProtocol narrow state :=
  ⟨_, rfl, rfl, pins_outlast_reads rfl
    (.next (.next (.next .start ⟨.bindGpuBlockPool, trivial, rfl⟩)
      ⟨.cache 1 (some [7]), trivial, rfl⟩) ⟨keyed .walks true, Or.inl rfl, rfl⟩)⟩

/-- The scheduler can make the calls, and they leave a state that breaks the pin protocol. -/
def Breaks (settings : Settings) (calls : List Action) : Prop :=
  ∃ state, Run (Scheduled settings) (start 2) [] state ∧
    Run.execute (move settings) (start 2) calls = some (state, []) ∧
    ¬ PinProtocol settings state

/-- A touch that fails pins nothing, and the books are right. -/
theorem pins_accounted_untouched : ∃ state,
    Run.execute (move narrow) (start 2) (cached ++ [keyed .walks false]) = some (state, []) ∧
      state.account.shipped = [(1, 1)] ∧ state.observer.pinFifo.flatten.Nodup ∧
      (unpinAll state).pool.refCnt = state.account.others := by
  obtain ⟨state, executed, shipped⟩ : ∃ state,
      Run.execute (move narrow) (start 2) (cached ++ [keyed .walks false]) = some (state, []) ∧
        state.account.shipped = [(1, 1)] := ⟨_, rfl, rfl⟩
  have run : Run (Scheduled narrow) (start 2) [] state := Run.Run.execute .start executed
  obtain ⟨-, -, distinct, -, -, -, others⟩ := pins_accounted rfl run
  exact ⟨state, executed, shipped, distinct, others⟩

/-- What is executed is run. -/
theorem Breaks.of_executed {calls : List Action}
    (executed : Run.execute (move settings) (start 2) calls = some (state, []))
    (broken : ¬ PinProtocol settings state) : Breaks settings calls :=
  ⟨state, Run.Run.execute .start executed, executed, broken⟩

/-- A failed touch ships a block that nobody pins; a disabled store keeps a pin for ever; and a
scan that raises frees a pin one call early. -/
theorem disorderly_calls_break_pins :
    Breaks narrow (cached ++ [keyed .walks false]) ∧
      Breaks narrow (cached ++
        [keyed .walks true, .disableLazyStore, keyed .walks true, keyed .walks true]) ∧
      Breaks narrow (cached ++ [keyed .walks true, keyed .absent true, keyed .raises true]) := by
  refine ⟨.of_executed rfl fun kept => ?_, .of_executed rfl fun kept => ?_,
    .of_executed rfl fun kept => ?_⟩
  · have pinned : (1, 1) ∈ ([] : List (Nat × Nat)) := kept.held 1 1 (by decide) (by decide)
    cases pinned
  · have recent : 3 < 1 + 2 := kept.timely 1 1 (by decide)
    omega
  · have pinned : (1, 1) ∈ ([] : List (Nat × Nat)) := kept.held 1 1 (by decide) (by decide)
    cases pinned

end KvCache.Offload
