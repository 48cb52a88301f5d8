import KvCache.Offload.PinProtocol
import Mathlib.Data.List.Nodup
import Mathlib.Data.List.Count

/-!
# The account of the pins

In every run the references that the observer holds are the blocks of its queue of pinned sets,
each of them once, and the references of others make up the rest of a block's count. A call
frees at most the oldest set, and only when the queue is as long as the delay; what it touches
comes from the free queue, whose blocks nobody references.
-/

namespace KvCache.Offload

open Function Run

variable {settings : Settings} {state after : State}

/-! ## The ledger -/

/-- Striking out the blocks at the front of the ledger drops that front. -/
theorem foldl_discharge {old rest : List Nat} {ledger : List (Nat × Nat)}
    (front : ledger.map (·.1) = old ++ rest) :
    old.foldl discharge ledger = ledger.drop old.length := by
  induction old generalizing ledger with
  | nil => rfl
  | cons block old inductionHypothesis =>
    cases ledger with
    | nil => simp at front
    | cons entry ledger =>
      simp only [List.map_cons, List.cons_append, List.cons.injEq] at front
      have struck : discharge (entry :: ledger) block = ledger := by
        simp [discharge, front.1]
      rw [List.foldl_cons, struck, inductionHypothesis front.2]
      rfl

/-! ## What each operation changes -/

section Popped

variable {old : List Nat} {rest : List (List Nat)}

@[simp]
theorem popPins_pinFifo : (popPins old rest state).observer.pinFifo = rest := by
  rw [popPins]
  split <;> rfl

@[simp]
theorem popPins_bound : (popPins old rest state).observer.bound = state.observer.bound := by
  rw [popPins]
  split <;> rfl

@[simp]
theorem popPins_pinnedNow :
    (popPins old rest state).observer.pinnedNow = state.observer.pinnedNow \ old.toFinset := by
  rw [popPins]
  split
  · next empty => simp [empty]
  · rfl

@[simp]
theorem popPins_refCnt (block : Nat) : (popPins old rest state).pool.refCnt block =
    state.pool.refCnt block - old.count block := by
  rw [popPins]
  split
  · next empty => simp [empty]
  · rfl

@[simp]
theorem popPins_freeQueue : (popPins old rest state).pool.freeQueue =
    state.pool.freeQueue ++ old.filter fun block =>
      state.pool.refCnt block - old.count block == 0 && !state.pool.isNull block := by
  rw [popPins]
  split
  · next empty => simp [empty]
  · rfl

@[simp]
theorem popPins_ledger : (popPins old rest state).account.ledger =
    old.foldl discharge state.account.ledger := by
  rw [popPins]
  split
  · next empty => simp [empty]
  · rfl

@[simp]
theorem popPins_freed (block : Nat) : (popPins old rest state).account.freed block =
    state.account.freed block + old.count block := by
  rw [popPins]
  split
  · next empty => simp [empty]
  · rfl

@[simp]
theorem popPins_touched : (popPins old rest state).account.touched = state.account.touched := by
  rw [popPins]
  split <;> rfl

@[simp]
theorem popPins_others : (popPins old rest state).account.others = state.account.others := by
  rw [popPins]
  split <;> rfl

@[simp]
theorem popPins_clock : (popPins old rest state).account.clock = state.account.clock := by
  rw [popPins]
  split <;> rfl

@[simp]
theorem popPins_shipped : (popPins old rest state).account.shipped = state.account.shipped := by
  rw [popPins]
  split <;> rfl

@[simp]
theorem popPins_lazyStoreDisabled :
    (popPins old rest state).lazyStoreDisabled = state.lazyStoreDisabled := by
  rw [popPins]
  split <;> rfl

end Popped

/-! ## The account of a run -/

/-- The account agrees with the pool and with the queue of pinned sets, which is no longer than
the delay and has no block twice; blocks of the free queue have no reference. -/
structure Accounted (settings : Settings) (state : State) : Prop where
  referenced : ∀ block, state.pool.refCnt block =
    state.account.others block + state.observer.pinFifo.flatten.count block
  balanced : ∀ block, state.account.touched block =
    state.account.freed block + state.observer.pinFifo.flatten.count block
  listed : state.account.ledger.map (·.1) = state.observer.pinFifo.flatten
  distinct : state.observer.pinFifo.flatten.Nodup
  marked : ∀ block, block ∈ state.observer.pinnedNow ↔ block ∈ state.observer.pinFifo.flatten
  short : state.observer.pinFifo.length ≤ settings.pinFreeDelay
  small : ∀ set ∈ state.observer.pinFifo, set.length ≤ settings.maxPin
  young : state.observer.pinFifo.length ≤ state.account.clock
  idle : ∀ block ∈ state.pool.freeQueue, state.pool.refCnt block = 0
  queue : state.pool.freeQueue.Nodup
  unbound : state.observer.bound = false → state.observer.pinFifo = []

theorem accounted_start (settings : Settings) (numGpuBlocks : Nat) :
    Accounted settings (start numGpuBlocks) where
  referenced _ := rfl
  balanced _ := rfl
  listed := rfl
  distinct := List.nodup_nil
  marked _ := by simp [start]
  short := Nat.zero_le _
  small _ member := nomatch member
  young := Nat.le_refl 0
  idle _ _ := rfl
  queue := List.nodup_range'
  unbound _ := rfl

/-- The oldest set is freed. -/
theorem Accounted.pop (accounted : Accounted settings state) {old : List Nat}
    {rest : List (List Nat)} (fifo : state.observer.pinFifo = old :: rest) :
    Accounted settings (popPins old rest state) ∧
      (popPins old rest state).account.ledger = state.account.ledger.drop old.length := by
  obtain ⟨referenced, balanced, listed, distinct, marked, short, small, young, idle, queue,
    unbound⟩ := accounted
  rw [fifo] at referenced balanced listed distinct marked short small young unbound
  rw [List.flatten_cons] at listed distinct
  simp only [List.flatten_cons, List.count_append, List.mem_append] at referenced balanced marked
  rw [List.length_cons] at short young
  have ledger := foldl_discharge listed
  obtain ⟨first, later, apart⟩ := List.nodup_append.mp distinct
  refine ⟨⟨?_, ?_, ?_, ?_, ?_, ?_, ?_, ?_, ?_, ?_, ?_⟩, by rw [popPins_ledger, ledger]⟩
  · intro block
    have counted := referenced block
    rw [popPins_refCnt, popPins_others, popPins_pinFifo]
    omega
  · intro block
    have counted := balanced block
    rw [popPins_freed, popPins_touched, popPins_pinFifo]
    omega
  · rw [popPins_ledger, ledger, List.map_drop, listed, List.drop_left, popPins_pinFifo]
  · rwa [popPins_pinFifo]
  · intro block
    rw [popPins_pinnedNow, popPins_pinFifo, Finset.mem_sdiff, marked, List.mem_toFinset]
    constructor
    · rintro ⟨either, absent⟩
      exact either.resolve_left absent
    · intro present
      exact ⟨Or.inr present, fun also => apart block also block present rfl⟩
  · rw [popPins_pinFifo]
    omega
  · rw [popPins_pinFifo]
    exact fun set member => small set (List.mem_cons_of_mem old member)
  · rw [popPins_pinFifo, popPins_clock]
    omega
  · intro block member
    rw [popPins_freeQueue, List.mem_append, List.mem_filter] at member
    rw [popPins_refCnt]
    rcases member with free | ⟨_, freed⟩
    · rw [idle block free, Nat.zero_sub]
    · simpa using (Bool.and_eq_true_iff.mp freed).1
  · rw [popPins_freeQueue, List.nodup_append]
    refine ⟨queue, first.filter _, ?_⟩
    rintro block free _ freed rfl
    have unused := idle block free
    have counted := referenced block
    have pinned := List.count_pos_iff.mpr (List.mem_of_mem_filter freed)
    omega
  · rw [popPins_bound]
    exact fun never => absurd (unbound never) (List.cons_ne_nil old rest)

/-- A scan frees nothing, or the oldest set of a queue as long as the delay. -/
theorem Accounted.expired (accounted : Accounted settings state) :
    (state.observer.pinFifo.length < settings.pinFreeDelay ∧
      freeExpiredPins settings.pinFreeDelay state.observer.pinFifo state = state) ∨
    ∃ old rest, state.observer.pinFifo = old :: rest ∧
      rest.length + 1 = settings.pinFreeDelay ∧
      freeExpiredPins settings.pinFreeDelay state.observer.pinFifo state =
        popPins old rest state := by
  have short := accounted.short
  have positive := settings.delay_pos
  cases fifo : state.observer.pinFifo with
  | nil => exact Or.inl ⟨positive, rfl⟩
  | cons old rest =>
    rw [fifo, List.length_cons] at short
    rw [freeExpiredPins]
    split
    · next full =>
      refine Or.inr ⟨old, rest, rfl, by omega, ?_⟩
      cases rest with
      | nil => rfl
      | cons next later =>
        rw [freeExpiredPins, if_neg (by rw [List.length_cons] at short; omega)]
    · next open_ =>
      exact Or.inl ⟨by rw [List.length_cons]; omega, rfl⟩

/-- The account does not mention the number of scans. -/
theorem Accounted.counted (accounted : Accounted settings state) (calls : Nat) :
    Accounted settings { state with observer := { state.observer with calls := calls } } :=
  ⟨accounted.referenced, accounted.balanced, accounted.listed, accounted.distinct,
    accounted.marked, accounted.short, accounted.small, accounted.young, accounted.idle,
    accounted.queue, accounted.unbound⟩

theorem Accounted.succeed (accounted : Accounted settings state) :
    Accounted settings (succeed state) :=
  { accounted with young := Nat.le_succ_of_le accounted.young }

/-- A call records a set without touching a block. -/
theorem Accounted.recordNone (accounted : Accounted settings state)
    (room : state.observer.pinFifo.length < settings.pinFreeDelay)
    (earlier : state.observer.pinFifo.length < state.account.clock)
    (bound : state.observer.bound = true) : Accounted settings (recordPins [] state) where
  referenced block := by simpa [recordPins] using accounted.referenced block
  balanced block := by simpa [recordPins] using accounted.balanced block
  listed := by simpa [recordPins] using accounted.listed
  distinct := by simpa [recordPins] using accounted.distinct
  marked block := by simpa [recordPins] using accounted.marked block
  short := by
    rw [recordPins, List.length_append]
    exact room
  small set member := by
    rcases List.mem_append.mp member with old | new
    · exact accounted.small set old
    · rw [List.mem_singleton.mp new]
      exact Nat.zero_le _
  young := by
    rw [recordPins, List.length_append]
    exact earlier
  idle := accounted.idle
  queue := accounted.queue
  unbound never := absurd (bound.symm.trans never) (by decide)

/-- A call touches blocks that are not pinned and records them. -/
theorem Accounted.recordTouched {pinned : State} {fresh : List Nat}
    (accounted : Accounted settings state) (touched : touchBlocks true fresh state = some pinned)
    (room : state.observer.pinFifo.length < settings.pinFreeDelay)
    (earlier : state.observer.pinFifo.length < state.account.clock)
    (bound : state.observer.bound = true) (few : fresh.length ≤ settings.maxPin)
    (once : fresh.Nodup) (apart : ∀ block ∈ fresh, block ∉ state.observer.pinFifo.flatten) :
    Accounted settings (recordPins fresh pinned) := by
  simp only [touchBlocks, if_true, Option.some.injEq] at touched
  subst touched
  refine ⟨?_, ?_, ?_, ?_, ?_, ?_, ?_, ?_, ?_, ?_, ?_⟩
  · intro block
    have counted := accounted.referenced block
    simp only [recordPins, BlockPool.touch, List.flatten_append, List.flatten_singleton,
      List.count_append]
    omega
  · intro block
    have counted := accounted.balanced block
    simp only [recordPins, List.flatten_append, List.flatten_singleton, List.count_append]
    omega
  · simp [recordPins, accounted.listed, Function.comp_def]
  · simp only [recordPins, List.flatten_append, List.flatten_singleton]
    rw [List.nodup_append]
    refine ⟨accounted.distinct, once, ?_⟩
    rintro block old _ new rfl
    exact apart block new old
  · intro block
    simp [recordPins, accounted.marked block]
  · rw [recordPins, List.length_append]
    exact room
  · intro set member
    rcases List.mem_append.mp member with old | new
    · exact accounted.small set old
    · rw [List.mem_singleton.mp new]
      exact few
  · rw [recordPins, List.length_append]
    exact earlier
  · intro block free
    obtain ⟨queued, untouched⟩ := List.mem_filter.mp free
    have unused := accounted.idle block queued
    have absent : fresh.count block = 0 :=
      List.count_eq_zero.mpr (of_decide_eq_true untouched)
    simp only [recordPins, BlockPool.touch]
    omega
  · exact accounted.queue.filter _
  · exact fun never => absurd (bound.symm.trans never) (by decide)

/-! ## The walk -/

/-- The walk adds distinct blocks of the queue, up to the number a call may pin. -/
theorem walk_spec (pool : BlockPool) (queue : List Nat) (walked : Nat)
    (selected : List (Nat × List UInt8)) :
    ∃ found : List (Nat × List UInt8), walk settings pool queue walked selected = selected ++ found ∧
      (found.map (·.1)).Sublist queue ∧
      (selected.length ≤ settings.maxPin → selected.length + found.length ≤ settings.maxPin) := by
  induction queue generalizing walked selected with
  | nil => exact ⟨[], by simp [walk], by simp, by simp⟩
  | cons node rest inductionHypothesis =>
    rw [walk]
    split
    · cases pool.blockHash node with
      | none =>
        obtain ⟨found, same, within, few⟩ := inductionHypothesis (walked + 1) selected
        exact ⟨found, same, within.cons node, few⟩
      | some hash =>
        dsimp only
        split
        · next chosen =>
          obtain ⟨found, same, within, few⟩ :=
            inductionHypothesis (walked + 1) (selected ++ [(node, stripHash hash)])
          refine ⟨(node, stripHash hash) :: found, ?_, ?_, ?_⟩
          · rw [same, List.append_assoc]
            rfl
          · exact within.cons_cons node
          · intro _
            have room := chosen.2.2
            rw [List.length_append, List.length_singleton] at few
            have total := few (by omega)
            rw [List.length_cons]
            omega
        · obtain ⟨found, same, within, few⟩ := inductionHypothesis (walked + 1) selected
          exact ⟨found, same, within.cons node, few⟩
    · exact ⟨[], by simp, by simp, by simp⟩

theorem resolve_sublist (sideTable : List UInt8 → Option String)
    (selected : List (Nat × List UInt8)) :
    ((resolve sideTable selected).map (·.1)).Sublist (selected.map (·.1)) := by
  induction selected with
  | nil => exact List.Sublist.slnil
  | cons item rest inductionHypothesis =>
    obtain ⟨block, hash⟩ := item
    rw [resolve, List.filterMap_cons]
    dsimp only
    cases (if hash = [] then none else sideTable hash) with
    | none => exact inductionHypothesis.cons block
    | some key => exact inductionHypothesis.cons_cons block

/-- What a call ships: distinct blocks of the free queue, no more than it may pin. -/
theorem shipped_spec (sideTable : List UInt8 → Option String) (pool : BlockPool) :
    let resolved := (resolve sideTable (walk settings pool pool.freeQueue 0 [])).map (·.1)
    resolved.Sublist pool.freeQueue ∧ resolved.length ≤ settings.maxPin := by
  obtain ⟨found, same, within, few⟩ :=
    @walk_spec settings pool pool.freeQueue 0 []
  have smaller := resolve_sublist sideTable found
  dsimp only
  rw [same, List.nil_append]
  have bounded := few (Nat.zero_le _)
  rw [List.length_nil, Nat.zero_add] at bounded
  exact ⟨smaller.trans within,
    Nat.le_trans smaller.length_le ((List.length_map _).trans_le bounded)⟩

/-! ## A call -/

/-- The state after the expired pins were freed in a scan. -/
def afterScan (settings : Settings) (state : State) : State :=
  freeExpiredPins settings.pinFreeDelay state.observer.pinFifo
    { state with observer := { state.observer with calls := state.observer.calls + 1 } }

theorem freeExpiredPins_bound (delay : Nat) (fifo : List (List Nat)) (state : State) :
    (freeExpiredPins delay fifo state).observer.bound = state.observer.bound := by
  induction fifo generalizing state with
  | nil => rfl
  | cons old rest inductionHypothesis =>
    rw [freeExpiredPins]
    split
    · rw [inductionHypothesis, popPins_bound]
    · rfl

theorem freeExpiredPins_lazyStoreDisabled (delay : Nat) (fifo : List (List Nat)) (state : State) :
    (freeExpiredPins delay fifo state).lazyStoreDisabled = state.lazyStoreDisabled := by
  induction fifo generalizing state with
  | nil => rfl
  | cons old rest inductionHypothesis =>
    rw [freeExpiredPins]
    split
    · rw [inductionHypothesis, popPins_lazyStoreDisabled]
    · rfl

/-- How a call with pins enabled ends. -/
theorem buildConnectorMeta_cases (enabled : settings.pinEnabled = true) (call : Call)
    (state : State) :
    (state.observer.bound = false ∧ ∃ specs, specs.getD [] = [] ∧
      buildConnectorMeta settings call state = (succeed state, specs)) ∨
    (state.observer.bound = true ∧ call.scan = .raises ∧
      buildConnectorMeta settings call state = (afterScan settings state, none)) ∨
    (state.observer.bound = true ∧ call.scan ≠ .raises ∧ state.lazyStoreDisabled = true ∧
      buildConnectorMeta settings call state = (succeed (afterScan settings state), none)) ∨
    (state.observer.bound = true ∧ call.scan ≠ .raises ∧ state.lazyStoreDisabled = false ∧
      ∃ selected, (step settings call.scan state).2 = some selected ∧
        (selected = [] ∨ selected = walk settings (afterScan settings state).pool
          (afterScan settings state).pool.freeQueue 0 []) ∧
        buildConnectorMeta settings call state =
          (pin settings call.touches ((resolve call.sideTable selected).map (·.1))
            (succeed (afterScan settings state)), some (resolve call.sideTable selected))) := by
  have wrapped := settings.pins_wrapped enabled
  have flag : (afterScan settings state).lazyStoreDisabled = state.lazyStoreDisabled :=
    freeExpiredPins_lazyStoreDisabled _ _ _
  cases bound : state.observer.bound with
  | false =>
    refine Or.inl ⟨rfl, ?_⟩
    have scan : step settings call.scan state = (succeed state, some []) := by
      rw [step, bound]
      rfl
    rw [buildConnectorMeta, scan]
    dsimp only
    split
    · exact ⟨none, rfl, rfl⟩
    · refine ⟨some (resolve call.sideTable []), rfl, ?_⟩
      have unpinned : pin settings call.touches ((resolve call.sideTable []).map (·.1))
          (succeed state) = succeed state := by
        rw [pin, if_pos]
        simp [succeed, bound]
      rw [unpinned]
  | true =>
    refine Or.inr ?_
    cases ended : call.scan with
    | raises =>
      refine Or.inl ⟨rfl, rfl, ?_⟩
      have scan : step settings call.scan state = (afterScan settings state, none) := by
        rw [step, bound, ended, enabled]
        rfl
      rw [buildConnectorMeta, scan]
    | absent =>
      refine Or.inr ?_
      have scan : step settings call.scan state =
          (succeed (afterScan settings state), some []) := by
        rw [step, bound, ended, enabled]
        rfl
      cases disabled : state.lazyStoreDisabled with
      | true =>
        refine Or.inl ⟨rfl, nofun, rfl, ?_⟩
        simp [buildConnectorMeta, scan, wrapped, succeed, flag, disabled]
      | false =>
        refine Or.inr ⟨rfl, nofun, rfl, [], by rw [← ended, scan], Or.inl rfl, ?_⟩
        simp [buildConnectorMeta, scan, wrapped, succeed, flag, disabled]
    | walks =>
      refine Or.inr ?_
      have scan : step settings call.scan state =
          (succeed (afterScan settings state), some (walk settings (afterScan settings state).pool
            (afterScan settings state).pool.freeQueue 0 [])) := by
        rw [step, bound, ended, enabled]
        rfl
      cases disabled : state.lazyStoreDisabled with
      | true =>
        refine Or.inl ⟨rfl, nofun, rfl, ?_⟩
        simp [buildConnectorMeta, scan, wrapped, succeed, flag, disabled]
      | false =>
        refine Or.inr ⟨rfl, nofun, rfl, _, by rw [← ended, scan], Or.inr rfl, ?_⟩
        simp [buildConnectorMeta, scan, wrapped, succeed, flag, disabled]

/-- A scan leaves room for the set of its call. -/
theorem Accounted.scanned (accounted : Accounted settings state) :
    Accounted settings (afterScan settings state) ∧
      (afterScan settings state).observer.pinFifo.length < settings.pinFreeDelay ∧
      (afterScan settings state).observer.pinFifo =
        undue settings.pinFreeDelay state.observer.pinFifo ∧
      (afterScan settings state).account.ledger = state.account.ledger.drop
        (due settings.pinFreeDelay state.observer.pinFifo).flatten.length ∧
      (afterScan settings state).account.clock = state.account.clock ∧
      (afterScan settings state).account.shipped = state.account.shipped := by
  have positive := settings.delay_pos
  have counted := accounted.counted (state.observer.calls + 1)
  rcases counted.expired with ⟨room, same⟩ | ⟨old, rest, fifo, full, same⟩
  · have none_due : state.observer.pinFifo.length + 1 - settings.pinFreeDelay = 0 := by
      have room' : state.observer.pinFifo.length < settings.pinFreeDelay := room
      omega
    rw [afterScan, same]
    refine ⟨counted, room, ?_, ?_, rfl, rfl⟩
    · rw [undue, none_due, List.drop_zero]
    · rw [due, none_due, List.take_zero]
      rfl
  · obtain ⟨popped, ledger⟩ := counted.pop fifo
    have fifo' : state.observer.pinFifo = old :: rest := fifo
    have one_due : state.observer.pinFifo.length + 1 - settings.pinFreeDelay = 1 := by
      rw [fifo', List.length_cons]
      omega
    rw [afterScan, same]
    refine ⟨popped, ?_, ?_, ?_, popPins_clock, popPins_shipped⟩
    · rw [popPins_pinFifo]
      omega
    · rw [undue, one_due, fifo', popPins_pinFifo]
      rfl
    · rw [due, one_due, fifo', ledger]
      simp

/-- How the pins of a call end: with a set of touched blocks, or with an empty one. -/
theorem pin_cases (enabled : settings.pinEnabled = true) (touches : Bool) {blocks : List Nat}
    (bound : state.observer.bound = true)
    (unpinned : ∀ block ∈ blocks, block ∉ state.observer.pinnedNow) :
    ((blocks = [] ∨ touches = false) ∧
      pin settings touches blocks state = recordPins [] state) ∨
    ∃ pinned, touchBlocks true blocks state = some pinned ∧
      pin settings touches blocks state = recordPins blocks pinned := by
  have fresh : blocks.filter (· ∉ state.observer.pinnedNow) = blocks :=
    List.filter_eq_self.mpr fun block member => decide_eq_true (unpinned block member)
  rw [pin, if_neg (by simp [enabled, bound])]
  dsimp only
  rw [fresh]
  split
  · cases touches with
    | false => exact Or.inl ⟨Or.inr rfl, rfl⟩
    | true => exact Or.inr ⟨_, rfl, rfl⟩
  · next none_fresh => exact Or.inl ⟨Or.inl (by simpa using none_fresh), rfl⟩

/-- What a call resolves is distinct, not pinned, and no more than it may pin. -/
theorem Accounted.resolved (accounted : Accounted settings state)
    (sideTable : List UInt8 → Option String) {selected : List (Nat × List UInt8)}
    (found : selected = [] ∨
      selected = walk settings state.pool state.pool.freeQueue 0 []) :
    ((resolve sideTable selected).map (·.1)).length ≤ settings.maxPin ∧
      ((resolve sideTable selected).map (·.1)).Nodup ∧
      ∀ block ∈ (resolve sideTable selected).map (·.1),
        block ∉ state.observer.pinFifo.flatten := by
  rcases found with rfl | rfl
  · exact ⟨Nat.zero_le _, List.nodup_nil, nofun⟩
  · obtain ⟨within, few⟩ := @shipped_spec settings sideTable state.pool
    refine ⟨few, accounted.queue.sublist within, ?_⟩
    intro block member pinned
    have unused := accounted.idle block (within.mem member)
    have counted := accounted.referenced block
    have present := List.count_pos_iff.mpr pinned
    omega

/-! ## Every call keeps the account -/

theorem Accounted.ship (accounted : Accounted settings state)
    (specs : Option (List (Nat × String))) : Accounted settings (ship specs state) :=
  ⟨accounted.referenced, accounted.balanced, accounted.listed, accounted.distinct,
    accounted.marked, accounted.short, accounted.small, accounted.young, accounted.idle,
    accounted.queue, accounted.unbound⟩

theorem Accounted.buildConnectorMeta (accounted : Accounted settings state)
    (enabled : settings.pinEnabled = true) (call : Call) :
    Accounted settings (buildConnectorMeta settings call state).1 := by
  obtain ⟨freed, room, _⟩ := accounted.scanned
  have earlier := Nat.lt_succ_of_le freed.young
  rcases buildConnectorMeta_cases enabled call state with ⟨_, specs, _, answered⟩ |
    ⟨_, _, answered⟩ | ⟨_, _, _, answered⟩ | ⟨bound, _, _, selected, _, found, answered⟩
  · rw [answered]
    exact accounted.succeed
  · rw [answered]
    exact freed
  · rw [answered]
    exact freed.succeed
  · rw [answered]
    have reader : (Offload.succeed (afterScan settings state)).observer.bound = true :=
      (freeExpiredPins_bound _ _ _).trans bound
    obtain ⟨few, once, apart⟩ := freed.succeed.resolved call.sideTable found
    rcases pin_cases enabled call.touches reader fun block member pinned =>
      apart block member ((freed.marked block).mp pinned) with ⟨_, ended⟩ | ⟨pinned, touched, ended⟩
    · rw [ended]
      exact freed.succeed.recordNone room earlier reader
    · rw [ended]
      exact freed.succeed.recordTouched touched room earlier reader few once apart

/-- Other users of the pool leave the observer's references alone. -/
theorem Accounted.acquire (accounted : Accounted settings state) (block : Nat) :
    Accounted settings (acquire block state) := by
  refine { accounted with referenced := ?_, idle := ?_, queue := accounted.queue.filter _ }
  · intro other
    have counted := accounted.referenced other
    rcases eq_or_ne other block with rfl | different
    · simp [Offload.acquire, BlockPool.touch, counted]
      omega
    · simp [Offload.acquire, BlockPool.touch, counted, different, different.symm]
  · intro other free
    obtain ⟨queued, untouched⟩ := List.mem_filter.mp free
    have unused := accounted.idle other queued
    have absent : [block].count other = 0 :=
      List.count_eq_zero.mpr (of_decide_eq_true untouched)
    simp only [Offload.acquire, BlockPool.touch]
    omega

theorem Accounted.release (accounted : Accounted settings state) {block : Nat}
    (owned : 0 < state.account.others block) : Accounted settings (release block state) := by
  refine { accounted with referenced := ?_, idle := ?_, queue := ?_ }
  · intro other
    have counted := accounted.referenced other
    rcases eq_or_ne other block with rfl | different
    · simp [Offload.release, BlockPool.freeBlocks, counted]
      omega
    · simp [Offload.release, BlockPool.freeBlocks, counted, different, different.symm]
  · intro other member
    rcases List.mem_append.mp member with free | freed
    · have unused := accounted.idle other free
      simp [Offload.release, BlockPool.freeBlocks, unused]
    · exact beq_iff_eq.mp (Bool.and_eq_true_iff.mp (List.mem_filter.mp freed).2).1
  · refine List.nodup_append.mpr ⟨accounted.queue, (List.nodup_singleton block).filter _, ?_⟩
    rintro other free _ freed rfl
    have unused := accounted.idle other free
    have same := List.mem_singleton.mp (List.mem_of_mem_filter freed)
    have counted := accounted.referenced other
    subst same
    omega

/-- Every step keeps the account. -/
theorem Accounted.move (accounted : Accounted settings state)
    (enabled : settings.pinEnabled = true) {action : Action} {events : List Empty}
    (moved : move settings state action = some (after, events)) : Accounted settings after := by
  cases action with
  | bindGpuBlockPool =>
    obtain ⟨rfl, _⟩ := Prod.mk.inj (Option.some.inj moved)
    exact { accounted with unbound := nofun }
  | buildConnectorMeta call =>
    obtain ⟨rfl, _⟩ := Prod.mk.inj (Option.some.inj moved)
    exact (accounted.buildConnectorMeta enabled call).ship _
  | disableLazyStore =>
    obtain ⟨rfl, _⟩ := Prod.mk.inj (Option.some.inj moved)
    exact { accounted with }
  | acquire block =>
    obtain ⟨rfl, _⟩ := Prod.mk.inj (Option.some.inj moved)
    exact accounted.acquire block
  | release block =>
    rw [Offload.move] at moved
    split at moved
    · next owned =>
      obtain ⟨rfl, _⟩ := Prod.mk.inj (Option.some.inj moved)
      exact accounted.release owned
    · cases moved
  | cache block hash =>
    obtain ⟨rfl, _⟩ := Prod.mk.inj (Option.some.inj moved)
    exact { accounted with }

/-! ## All pins can be returned -/

/-- Popping every set frees every reference of the observer. -/
theorem Accounted.unpinSets (accounted : Accounted settings state) {fifo : List (List Nat)}
    (same : state.observer.pinFifo = fifo) :
    Accounted settings (unpinSets fifo state) ∧
      (unpinSets fifo state).observer.pinFifo = [] ∧
      (unpinSets fifo state).account.others = state.account.others := by
  induction fifo generalizing state with
  | nil => exact ⟨accounted, same, rfl⟩
  | cons old rest inductionHypothesis =>
    obtain ⟨next, empty, others⟩ :=
      inductionHypothesis (accounted.pop same).1 popPins_pinFifo
    exact ⟨next, empty, others.trans popPins_others⟩

theorem Accounted.returned (accounted : Accounted settings state) :
    (unpinAll state).account.ledger = [] ∧
      (unpinAll state).account.freed = (unpinAll state).account.touched ∧
      (unpinAll state).pool.refCnt = state.account.others := by
  have released : ∃ released, Accounted settings released ∧ released.observer.pinFifo = [] ∧
      released.account.others = state.account.others ∧
      unpinAll state = { released with
        observer := { released.observer with pinFifo := [], pinnedNow := ∅ } } := by
    rw [unpinAll]
    cases bound : state.observer.bound with
    | true =>
      obtain ⟨next, empty, others⟩ := accounted.unpinSets rfl
      exact ⟨_, next, empty, others, rfl⟩
    | false => exact ⟨state, accounted, accounted.unbound bound, rfl, rfl⟩
  obtain ⟨released, kept, empty, others, same⟩ := released
  have listed := kept.listed
  rw [empty] at listed
  rw [same]
  refine ⟨List.map_eq_nil_iff.mp listed, funext fun block => ?_, funext fun block => ?_⟩
  · have counted := kept.balanced block
    rw [empty] at counted
    exact counted.symm
  · have counted := kept.referenced block
    rw [empty, others] at counted
    exact counted

/-- Lists of bounded length, flattened. -/
theorem flatten_length_le {fifo : List (List Nat)} {most : Nat}
    (small : ∀ set ∈ fifo, set.length ≤ most) : fifo.flatten.length ≤ fifo.length * most := by
  induction fifo with
  | nil => exact Nat.zero_le _
  | cons set rest inductionHypothesis =>
    have first := small set List.mem_cons_self
    have others := inductionHypothesis fun other member => small other (List.mem_cons_of_mem set member)
    rw [List.flatten_cons, List.length_append, List.length_cons, Nat.succ_mul]
    omega

theorem Accounted.bounded (accounted : Accounted settings state) :
    state.account.ledger.length ≤ settings.pinFreeDelay * settings.maxPin := by
  have listed := congrArg List.length accounted.listed
  rw [List.length_map] at listed
  rw [listed]
  exact (flatten_length_le accounted.small).trans (Nat.mul_le_mul_right _ accounted.short)

/-! ## Runs -/

/-- The steps of the scheduler. -/
abbrev Scheduled (settings : Settings) : State → List Empty → State → Prop :=
  Takes (move settings)

/-- With pins enabled, and whatever happens, the account of the references is kept: they are
taken and dropped in pairs, never two at once for a block, no more than the delay allows, and
all can be returned. -/
theorem accounted_reached (enabled : settings.pinEnabled = true) {numGpuBlocks : Nat}
    {events : List Empty} (run : Run (Scheduled settings) (start numGpuBlocks) events state) :
    Accounted settings state :=
  run.invariant (Accounted settings) (accounted_start settings numGpuBlocks)
    fun _ _ _ accounted ⟨_, moved⟩ => accounted.move enabled moved

end KvCache.Offload
