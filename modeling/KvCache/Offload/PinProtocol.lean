import KvCache.Foundation.Run
import Mathlib.Data.Finset.Basic
import Mathlib.Data.List.Range
import Mathlib.Logic.Function.Basic

/-!
# Pins of the lazy offload

The scheduler offloads blocks that are about to be evicted. At every call for the metadata of
a step its observer walks the front of the free queue of the block pool, the connector looks up
the key of each selected block, and the blocks with a key are shipped to the worker, which
reads and stores them in the step that follows. So that the pool cannot hand them out before
that, the observer touches them, and drops its references a fixed number of calls later. The
delay is not counted by a clock: it is the length of the queue of pinned sets, which one
method appends to and another consumes.

Beside what the code keeps, the state has an account: the references that others hold, those
of the observer with the call that took each, how often a block was touched and freed, the
number of calls whose step succeeded, and what was shipped at which of them.
-/

namespace KvCache.Offload

open Function

/-! ## The block pool -/

/-- The blocks of the pool by their id: references, the free queue from its front, the hash
that a cached full block has, and which block is the null block. -/
structure BlockPool where
  refCnt : Nat → Nat
  freeQueue : List Nat
  blockHash : Nat → Option (List UInt8)
  isNull : Nat → Bool

/-- A pool of blocks nobody uses; block 0 is the null block and never free. -/
def BlockPool.fresh (numGpuBlocks : Nat) : BlockPool where
  refCnt := fun _ => 0
  freeQueue := List.range' 1 (numGpuBlocks - 1)
  blockHash := fun _ => none
  isNull := fun block => block == 0

/-- One more reference to each block, none of which is free any longer. -/
def BlockPool.touch (pool : BlockPool) (blocks : List Nat) : BlockPool :=
  { pool with
    refCnt := fun block => pool.refCnt block + blocks.count block
    freeQueue := pool.freeQueue.filter (· ∉ blocks) }

/-- One reference less to each block; those without any are appended to the free queue. -/
def BlockPool.freeBlocks (pool : BlockPool) (blocks : List Nat) : BlockPool :=
  { pool with
    refCnt := fun block => pool.refCnt block - blocks.count block
    freeQueue := pool.freeQueue ++ blocks.filter fun block =>
      pool.refCnt block - blocks.count block == 0 && !pool.isNull block }

/-! ## The observer -/

/-- Rounded up; zero where the divisor is. -/
def cdiv (a b : Nat) : Nat := if b ≠ 0 then (a + b - 1) / b else 0

/-- Twice the blocks that one step can consume over the groups that have a block size, or 64. -/
def estimateTargetFreeBlocks (blockSizes : List (Option Nat)) (maxNumBatchedTokens : Nat) : Nat :=
  let target := blockSizes.foldl (fun target blockSize =>
    match blockSize with
    | some (size + 1) => target + cdiv maxNumBatchedTokens (size + 1)
    | _ => target) 0
  if target ≤ 0 then 64 else target * 2

/-- What the connector and its observer are configured with. Pins are made for wrapped
metadata only, and the delay is never zero. -/
structure Settings where
  wrapEnabled : Bool
  pinEnabled : Bool
  targetFree : Nat
  scanCap : Nat
  maxPin : Nat
  pinFreeDelay : Nat
  pins_wrapped : pinEnabled = true → wrapEnabled = true
  delay_pos : 0 < pinFreeDelay

/-- Pins need wrapped blocks. -/
theorem Settings.lazy_of_pins (lazy lazyPin : Bool) (enabled : (lazy && lazyPin) = true) :
    lazy = true :=
  (Bool.and_eq_true_iff.mp enabled).1

/-- A delay lasts one call at least. -/
theorem Settings.delay_clamped (pinFreeDelay : Int) : 0 < (max 1 pinFreeDelay).toNat := by
  omega

/-- The settings of a store mode, with the depth of the walk estimated or overridden. -/
def Settings.init (blockSizes : List (Option Nat)) (maxNumBatchedTokens : Nat)
    (lazy lazyPin : Bool) (pinFreeDelay : Int) (watermark : Option Int) : Settings :=
  let targetFree := match watermark with
    | some depth => (max 1 depth).toNat
    | none => estimateTargetFreeBlocks blockSizes maxNumBatchedTokens
  { wrapEnabled := lazy
    pinEnabled := lazy && lazyPin
    targetFree := targetFree
    scanCap := max (targetFree * 4) 256
    maxPin := targetFree
    pinFreeDelay := (max 1 pinFreeDelay).toNat
    pins_wrapped := Settings.lazy_of_pins lazy lazyPin
    delay_pos := Settings.delay_clamped pinFreeDelay }

/-- The observer: whether a pool was bound to it, the pinned sets of the last calls, oldest
first, and the blocks in them. -/
structure Observer where
  bound : Bool
  calls : Nat
  pinFifo : List (List Nat)
  pinnedNow : Finset Nat

/-- References of others; references of the observer with the call that took each; how often
it touched and freed a block; successful calls; and the blocks shipped, with their call. -/
structure Account where
  others : Nat → Nat
  ledger : List (Nat × Nat)
  touched : Nat → Nat
  freed : Nat → Nat
  clock : Nat
  shipped : List (Nat × Nat)

structure State where
  pool : BlockPool
  observer : Observer
  lazyStoreDisabled : Bool
  account : Account

/-- A scheduler that has constructed its pool and observer. -/
def start (numGpuBlocks : Nat) : State where
  pool := .fresh numGpuBlocks
  observer := ⟨false, 0, [], ∅⟩
  lazyStoreDisabled := false
  account := ⟨fun _ => 0, [], fun _ => 0, fun _ => 0, 0, []⟩

/-- Strike out the oldest reference to a block. -/
def discharge (ledger : List (Nat × Nat)) (block : Nat) : List (Nat × Nat) :=
  ledger.eraseP (·.1 == block)

/-- Touch blocks for the observer, or fail and change nothing. -/
def touchBlocks (touches : Bool) (blocks : List Nat) (state : State) : Option State :=
  if touches then
    some { state with
      pool := state.pool.touch blocks
      account := { state.account with
        ledger := state.account.ledger ++ blocks.map (·, state.account.clock)
        touched := fun block => state.account.touched block + blocks.count block } }
  else none

/-- Drop the references of a pinned set. -/
def freeBlocks (blocks : List Nat) (state : State) : State :=
  { state with
    pool := state.pool.freeBlocks blocks
    account := { state.account with
      ledger := blocks.foldl discharge state.account.ledger
      freed := fun block => state.account.freed block + blocks.count block } }

/-- Take the oldest pinned set from the queue and free it. -/
def popPins (old : List Nat) (rest : List (List Nat)) (state : State) : State :=
  let popped := { state with observer := { state.observer with pinFifo := rest } }
  if old = [] then popped
  else
    { freeBlocks old popped with
      observer := { popped.observer with
        pinnedNow := popped.observer.pinnedNow \ old.toFinset } }

/-- Free the pinned sets from the front while there are as many as the delay. -/
def freeExpiredPins (delay : Nat) : List (List Nat) → State → State
  | [], state => state
  | old :: rest, state =>
    if delay ≤ rest.length + 1 then freeExpiredPins delay rest (popPins old rest state)
    else state

/-- The hash without the group id that the pool appends to it. -/
def stripHash (hash : List UInt8) : List UInt8 :=
  if 4 < hash.length then hash.take (hash.length - 4) else hash

/-- Walk the free queue: the cached full blocks within the watermark, with their hashes, no
more of them than a call may pin. -/
def walk (settings : Settings) (pool : BlockPool) :
    List Nat → Nat → List (Nat × List UInt8) → List (Nat × List UInt8)
  | [], _, selected => selected
  | node :: rest, walked, selected =>
    if walked < settings.scanCap then
      walk settings pool rest (walked + 1) <|
        match pool.blockHash node with
        | some hash =>
          if !pool.isNull node ∧ walked < settings.targetFree ∧
              selected.length < settings.maxPin then
            selected ++ [(node, stripHash hash)]
          else selected
        | none => selected
    else selected

/-- How reading the free queue ends: an exception, no queue to read, or the whole walk. -/
inductive Scan where
  | raises
  | absent
  | walks
deriving DecidableEq, Repr

/-- Count a scan that does not raise. -/
def succeed (state : State) : State :=
  { state with account := { state.account with clock := state.account.clock + 1 } }

/-- One scan of the observer, `none` where it raises. It frees the expired pins first. -/
def step (settings : Settings) (scan : Scan) (state : State) :
    State × Option (List (Nat × List UInt8)) :=
  if !state.observer.bound then (succeed state, some [])
  else
    let counted := { state with
      observer := { state.observer with calls := state.observer.calls + 1 } }
    let expired :=
      if settings.pinEnabled then
        freeExpiredPins settings.pinFreeDelay counted.observer.pinFifo counted
      else counted
    match scan with
    | .raises => (expired, none)
    | .absent => (succeed expired, some [])
    | .walks => (succeed expired, some (walk settings expired.pool expired.pool.freeQueue 0 []))

/-- Append the set of a call. -/
def recordPins (set : List Nat) (state : State) : State :=
  { state with
    observer := { state.observer with
      pinFifo := state.observer.pinFifo ++ [set]
      pinnedNow := state.observer.pinnedNow ∪ set.toFinset } }

/-- Pin the blocks that no live set has; the set of this call is recorded also where it is
empty or could not be touched. -/
def pin (settings : Settings) (touches : Bool) (blocks : List Nat) (state : State) : State :=
  if !settings.pinEnabled || !state.observer.bound then state
  else
    let fresh := blocks.filter (· ∉ state.observer.pinnedNow)
    if fresh ≠ [] then
      match touchBlocks touches fresh state with
      | some pinned => recordPins fresh pinned
      | none => recordPins [] state
    else recordPins [] state

/-- Free every pinned set. -/
def unpinSets : List (List Nat) → State → State
  | [], state => state
  | old :: rest, state => unpinSets rest (popPins old rest state)

/-- Release all outstanding pins. -/
def unpinAll (state : State) : State :=
  let released := if state.observer.bound then unpinSets state.observer.pinFifo state else state
  { released with observer := { released.observer with pinFifo := [], pinnedNow := ∅ } }

/-! ## The connector -/

/-- What a call meets: the side table from hashes to keys, how the scan ends, and whether the
pool lets itself be touched. -/
structure Call where
  sideTable : List UInt8 → Option String
  scan : Scan
  touches : Bool

/-- The selected blocks that have a key. -/
def resolve (sideTable : List UInt8 → Option String) (selected : List (Nat × List UInt8)) :
    List (Nat × String) :=
  selected.filterMap fun (block, hash) =>
    (if hash = [] then none else sideTable hash).map (block, ·)

/-- The metadata of a step, with what is shipped where it is wrapped. -/
def buildConnectorMeta (settings : Settings) (call : Call) (state : State) :
    State × Option (List (Nat × String)) :=
  match step settings call.scan state with
  | (stepped, none) => (stepped, none)
  | (stepped, some selected) =>
    if !settings.wrapEnabled || stepped.lazyStoreDisabled then (stepped, none)
    else
      let resolved := resolve call.sideTable selected
      (pin settings call.touches (resolved.map (·.1)) stepped, some resolved)

/-- Enter what was shipped into the account. -/
def ship (specs : Option (List (Nat × String))) (state : State) : State :=
  { state with account := { state.account with
      shipped := state.account.shipped ++
        (specs.getD []).map fun (block, _) => (block, state.account.clock) } }

/-! ## Runs -/

/-- What happens to the scheduler: its pool is bound, it is asked for metadata, the lazy store
is found to be unsupported; and requests take blocks, drop them and cache them. -/
inductive Action where
  | bindGpuBlockPool
  | buildConnectorMeta (call : Call)
  | disableLazyStore
  | acquire (block : Nat)
  | release (block : Nat)
  | cache (block : Nat) (hash : Option (List UInt8))

/-- A request takes a reference, from the free queue or to a block that is in use. -/
def acquire (block : Nat) (state : State) : State :=
  { state with
    pool := state.pool.touch [block]
    account := { state.account with
      others := update state.account.others block (state.account.others block + 1) } }

/-- A request drops a reference that it holds. -/
def release (block : Nat) (state : State) : State :=
  { state with
    pool := state.pool.freeBlocks [block]
    account := { state.account with
      others := update state.account.others block (state.account.others block - 1) } }

def move (settings : Settings) (state : State) : Action → Option (State × List Empty)
  | .bindGpuBlockPool =>
    some ({ state with observer := { state.observer with bound := true } }, [])
  | .buildConnectorMeta call =>
    let (after, specs) := buildConnectorMeta settings call state
    some (ship specs after, [])
  | .disableLazyStore => some ({ state with lazyStoreDisabled := true }, [])
  | .acquire block => some (acquire block state, [])
  | .release block => if 0 < state.account.others block then some (release block state, []) else none
  | .cache block hash =>
    some ({ state with pool := { state.pool with
      blockHash := update state.pool.blockHash block hash } }, [])

/-! ## What the protocol promises -/

/-- A shipped block keeps the reference of its call while fewer calls than the delay have
succeeded since; references are taken and dropped in pairs, never two at once for a block, and
none is older than the delay; they are as few as the delay allows; and all can be returned. -/
structure PinProtocol (settings : Settings) (state : State) : Prop where
  held : ∀ block time, (block, time) ∈ state.account.shipped →
    state.account.clock < time + settings.pinFreeDelay → (block, time) ∈ state.account.ledger
  referenced : ∀ block, state.pool.refCnt block =
    state.account.others block + (state.account.ledger.map (·.1)).count block
  balanced : ∀ block, state.account.touched block =
    state.account.freed block + (state.account.ledger.map (·.1)).count block
  once : (state.account.ledger.map (·.1)).Nodup
  timely : ∀ block time, (block, time) ∈ state.account.ledger →
    state.account.clock < time + settings.pinFreeDelay
  bounded : state.account.ledger.length ≤ settings.pinFreeDelay * settings.maxPin
  returned : (unpinAll state).account.ledger = [] ∧
    (unpinAll state).account.freed = (unpinAll state).account.touched ∧
    (unpinAll state).pool.refCnt = state.account.others

/-- The pinned sets that the next scan frees. -/
def due (delay : Nat) (pinFifo : List (List Nat)) : List (List Nat) :=
  pinFifo.take (pinFifo.length + 1 - delay)

/-- The pinned sets that it leaves. -/
def undue (delay : Nat) (pinFifo : List (List Nat)) : List (List Nat) :=
  pinFifo.drop (pinFifo.length + 1 - delay)

/-- The steps that keep the protocol: a scan raises only while no pin is due; a scan that does
not leaves no pin once the lazy store is disabled; and a touch fails only where there is
nothing to touch. -/
def Orderly (settings : Settings) (state : State) : Action → Prop
  | .buildConnectorMeta call =>
    match call.scan with
    | .raises => (due settings.pinFreeDelay state.observer.pinFifo).flatten = []
    | _ =>
      if state.lazyStoreDisabled then
        (undue settings.pinFreeDelay state.observer.pinFifo).flatten = []
      else
        call.touches = true ∨ ∀ selected,
          (step settings call.scan state).2 = some selected → resolve call.sideTable selected = []
  | _ => True

end KvCache.Offload
