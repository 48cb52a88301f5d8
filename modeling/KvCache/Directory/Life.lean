import KvCache.Directory.Prepare
import KvCache.Foundation.Run

/-!
# The life of a directory

The scheduler works on the directory one operation after the other: it prepares and
publishes PUTs, commits published values, serves GETs from the device and from the host,
moves values between the tiers and removes keys. Blocks that no entry
names are held outside: the leases of the clients, the block of a PUT between its two
requests, and the blocks that wait for a value from the host.

A step is one operation. Requests arrive in any order, but the scheduler takes none
between the two requests of a PUT or while it waits for the value of a GET. The accesses
are counted without the wrap of the epoch word.
-/

namespace KvCache.Directory

open AlignedBlock Buddy Function HashIndex Layout Residency

/-- Who holds a block that no entry names. -/
inductive Holder where
  | lease (client : Nat)
  | reservation
  | serving
  | promoting
deriving DecidableEq, Repr

/-- A prepared PUT. -/
structure Granted where
  grant : PutGrant
  key : Key
  totalLen : Nat
deriving DecidableEq, Repr

/-- A block that waits for the value of a host entry. -/
structure Fetch where
  slot : Nat
  totalLen : Nat
  valueByteOff : Nat
  order : Nat
  accessEpoch : Nat
deriving DecidableEq, Repr

/-- The directory with the blocks held outside and the number of accesses so far. -/
structure Life where
  dir : State
  lease : Nat → Option Lease
  previousOrder : Option Nat
  granted : Option Granted
  serving : Option Fetch
  promoting : Option Fetch
  accesses : Nat

/-- Cold start. -/
def coldLife (g : Geometry) (contents : Nat → HeapBlock) : Life :=
  ⟨coldDirectory g contents, fun _ => none, none, none, none, none, 0⟩

/-- The block of a fetch. -/
def Fetch.block (fetch : Fetch) : Block := ⟨fetch.valueByteOff / maxChunkValueBytes, fetch.order⟩

/-- The blocks held outside the directory. -/
def Life.held (life : Life) : Holder → Option Block
  | .lease client => (life.lease client).map Lease.block
  | .reservation => life.granted.map fun granted => granted.grant.block
  | .serving => life.serving.map Fetch.block
  | .promoting => life.promoting.map Fetch.block

/-- The operations of the scheduler. -/
inductive DirAction where
  | prepare (client : Nat) (bind : Bool) (key : Key) (totalLen : Nat)
  | publish (token : Nat) (streamed : Bool)
  | commitHead (hostGeneration : Nat)
  | commitStreamed (slot hostGeneration : Nat)
  | hit (key : Key)
  | serve (key : Key)
  | finishServe
  | promote (key : Key)
  | finishPromote
  | moveToHost (key : Key)
  | remove (key : Key)
deriving DecidableEq, Repr

/-- A lease may be bound to a PUT that needs a block of its order. -/
def mayBind (lease : Option Lease) (totalLen : Nat) : Bool :=
  match lease with
  | some lease => lease.buddyOrder == buddyOrderForUnits (chunkCountFor totalLen)
  | none => false

variable (g : Geometry) (policy : LeasePolicy)

/-- PUT prepare of a client. -/
def Life.prepare (client : Nat) (bind : Bool) (key : Key) (totalLen : Nat) (life : Life) : Life :=
  let (dir, response, order) := putPrepare g policy life.previousOrder
    ⟨bind, key, totalLen, life.lease client⟩ life.dir
  { life with
    dir := dir
    lease := update life.lease client response.lease
    previousOrder := order
    granted := response.grant.map fun grant => ⟨grant, key, totalLen⟩ }

/-- The publish request of a prepared PUT. -/
def Granted.request (granted : Granted) (token : Nat) : PutPublishRequest :=
  ⟨granted.grant.dirSlot, granted.grant.valueByteOff, granted.grant.blockOrder, token,
    granted.totalLen, granted.key⟩

/-- Take a block for the value of a host entry. -/
def fetchBlock (slot accessEpoch : Nat) (dir : State) : State × Option Fetch :=
  let totalLen := (dir.entry slot).totalValueLen
  let (after, block) := allocateCacheBlock g (chunkCountFor totalLen) (.slot slot) true dir
  (after, block.map fun (unit, order) =>
    ⟨slot, totalLen, unit * maxChunkValueBytes, order, accessEpoch⟩)

/-- GET of a host entry: it is stamped at once if there is no block for it. -/
def Life.serve (slot : Nat) (life : Life) : Life :=
  let advanced := advanceEpoch life.dir
  let (dir, fetch) := fetchBlock g slot advanced.epoch advanced
  let counted := { life with dir := dir, serving := fetch, accesses := life.accesses + 1 }
  match fetch with
  | some _ => counted
  | none =>
    { counted with
      dir := persistHostGetAccessStampIfCurrent slot (life.dir.entry slot).totalValueLen
        advanced.epoch dir }

/-- End of a GET of a host entry: the block is admitted, or returned if the slot changed. -/
def Life.finishServe (fetch : Fetch) (life : Life) : Life :=
  let (dir, committed) := commitHostGetAdmission fetch.slot fetch.valueByteOff fetch.totalLen
    fetch.order fetch.accessEpoch life.dir
  { life with
    dir := if committed then dir else freeBlock g fetch.valueByteOff fetch.order dir
    serving := none }

/-- End of a promotion; an admission is an access. -/
def Life.finishPromote (fetch : Fetch) (life : Life) : Life :=
  { life with
    dir := finishPromotion g fetch.slot fetch.valueByteOff fetch.totalLen fetch.order life.dir
    promoting := none
    accesses :=
      if hostEntryIs life.dir fetch.slot fetch.totalLen then life.accesses + 1 else life.accesses }

/-- No request is being served. -/
def Life.idle (life : Life) : Bool := life.granted.isNone && life.serving.isNone

/-- One operation, if the scheduler may take it. -/
def lifeStep (life : Life) : DirAction → Option (Life × List Empty)
  | .prepare client bind key totalLen =>
    if life.idle ∧ totalLen ≤ g.maxValueBytes ∧ (bind = true → mayBind (life.lease client) totalLen)
    then some (life.prepare g policy client bind key totalLen, []) else none
  | .publish token streamed =>
    if life.serving = none then
      life.granted.bind fun granted =>
        (putPublish g streamed (granted.request token) life.dir).map fun dir =>
          ({ life with dir := dir, granted := none, accesses := life.accesses + 1 }, [])
    else none
  | .commitHead hostGeneration =>
    if life.serving = none then
      life.dir.putHostQueue.head?.map fun item =>
        ({ life with
          dir := popQueue (if freshItem life.dir item then
            commitEntry item.dirSlot hostGeneration life.dir else life.dir) }, [])
    else none
  | .commitStreamed slot hostGeneration =>
    if life.serving = none ∧ (life.dir.entry slot).valid = true ∧
        (life.dir.entry slot).location = .devicePendingHost then
      some ({ life with dir := commitEntry slot hostGeneration life.dir }, [])
    else none
  | .hit key =>
    if life.idle then
      (dirLookup g key life.dir).bind fun slot =>
        if (life.dir.entry slot).location = .host then none
        else some ({ life with
          dir := recordDeviceHit slot (nextEpoch life.dir.epoch) (advanceEpoch life.dir)
          accesses := life.accesses + 1 }, [])
    else none
  | .serve key =>
    if life.idle then
      (dirLookup g key life.dir).bind fun slot =>
        if (life.dir.entry slot).location = .host then some (life.serve g slot, []) else none
    else none
  | .finishServe => life.serving.map fun fetch => (life.finishServe g fetch, [])
  | .promote key =>
    if life.idle ∧ life.promoting = none then
      (dirLookup g key life.dir).bind fun slot =>
        if (life.dir.entry slot).location = .host then
          let (dir, fetch) := fetchBlock g slot 0 life.dir
          some ({ life with dir := dir, promoting := fetch }, [])
        else none
    else none
  | .finishPromote =>
    if life.serving = none then
      life.promoting.map fun fetch => (life.finishPromote g fetch, [])
    else none
  | .moveToHost key =>
    if life.idle then
      (dirLookup g key life.dir).bind fun slot =>
        (evictCachedBlock g slot life.dir).map fun dir => ({ life with dir := dir }, [])
    else none
  | .remove key =>
    if life.idle then
      (dirLookup g key life.dir).map fun slot =>
        ({ life with dir := removeEntry g slot life.dir }, [])
    else none

/-- A life that some sequence of operations leads to. -/
def LifeReached (contents : Nat → HeapBlock) : Life → Prop :=
  Run.Reachable (Run.Takes (lifeStep g policy)) (coldLife g contents)

end KvCache.Directory
