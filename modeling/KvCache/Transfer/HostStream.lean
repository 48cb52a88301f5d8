import KvCache.Foundation.Run
import KvCache.Host.WorkerSupply
import KvCache.Transfer.GetStream

/-!
# A host value streamed to a GET

The directory processor asks the host for a value and reads it from the mapped memory of
the host in batches of eight chunks. The host worker clears the progress word, announces
where the value lies, and publishes how many chunks are staged: a value in the pool at
once, any other after each block that it copied to the staging window. The reader takes a
batch when the progress word covers it.

Both sides run concurrently. A copy becomes visible byte by byte in any order until the
fence that ends it, and the bytes of a read arrive in any order until the barrier that
ends it. Words of the channel are seen in the order in which they are written. The reader
has a data cache that can load and drop the progress word at any time; it surely drops it
when it has seen the announcement and after each look at the word that did not suffice.

Between two requests the same memory and the same counters serve other operations of the
channel, so that a stream finds whatever these left.
-/

namespace KvCache.HostStream

open Layout HostTransfer Function Stretches
open HostTransfer.Internal (HostValue)
open GetStream (getValueCbReadBatch subWord)
open ClientOps (toWord)

/-- The worker: without a request, between two of its writes, waiting for the reader, or
told to stop. -/
inductive HostPhase where
  | idle
  | writing (remaining : List Effect)
  | awaiting
  | stopped

/-- The reader: without a request, waiting for the announcement, looking at the progress
word, reading a batch, after the last batch, or terminated. -/
inductive BriscPhase where
  | idle
  | called
  | gated (base : Nat)
  | reading (base : Nat) (arrived : Nat → Option UInt8)
  | drained
  | aborted
  | terminated

/-- The channel, the mapped memory and both sides. The value in service and its offset are
kept for reference only. -/
structure State where
  mapping : ByteMemory
  request : MoveRequest
  moveSem : Nat
  moveProcessed : Nat
  stageProgress : Nat
  commitReadOff : Nat
  commitSem : Nat
  completion : Nat
  host : HostPhase
  commitIssued : Nat
  brisc : BriscPhase
  commitSeen : Nat
  cached : Option Nat
  stageReadOff : Nat
  batches : List (List UInt8)
  served : List UInt8
  servedOff : Nat

/-- The channel before its first request. -/
def initial (mapping : ByteMemory) : State where
  mapping
  request := ⟨0, 0, 0, 0, 0, []⟩
  moveSem := 0
  moveProcessed := 0
  stageProgress := 0
  commitReadOff := 0
  commitSem := 0
  completion := 0
  host := .idle
  commitIssued := 0
  brisc := .idle
  commitSeen := 0
  cached := none
  stageReadOff := 0
  batches := []
  served := []
  servedOff := 0

variable (cfg : RuntimeConfig)

/-- Where the bytes of a host value are: on the heap of the host or in its pool extent. -/
def valueBytes (mapping : ByteMemory) (value : HostValue) : List UInt8 :=
  if 0 < value.poolUnits then mapping.read (readOffOf cfg value) value.len else value.heap

/-- Chunks of the value as the reader counts them. -/
def State.numChunks (state : State) : Nat := chunkCountFor state.request.totalLen

/-- Chunks of the batch at a base. -/
def thisBatch (numChunks base : Nat) : Nat :=
  if numChunks - base < getValueCbReadBatch then numChunks - base else getValueCbReadBatch

/-- Bytes of the value in the batch at a base. -/
def batchBytes (totalLen numChunks base : Nat) : Nat :=
  let batchSpan := toWord (thisBatch numChunks base * maxChunkValueBytes)
  let batchLeft := subWord totalLen (toWord (base * maxChunkValueBytes))
  if batchSpan < batchLeft then batchSpan else batchLeft

/-- Bytes that the read of a batch fetches: the alignment of the device is met by reading
past the value. -/
def readBytes (state : State) (base : Nat) : Nat :=
  roundUp 32 (batchBytes state.request.totalLen state.numChunks base)

/-- Address of a byte of the batch at a base. -/
def readAddress (state : State) (base index : Nat) : Nat :=
  state.stageReadOff + base * maxChunkValueBytes + index

/-- What happens next. -/
inductive Action where
  | post (request : MoveRequest)
  | take (value : HostValue)
  | visible (index : Nat)
  | write
  | observeCommit
  | prefetch
  | invalidate
  | poll
  | arrive (index : Nat)
  | barrier
  | giveUp
  | complete
  | finish
  | stop
  | otherMove (mapping : ByteMemory) (count : Nat)

instance (request : MoveRequest) (value : HostValue) : Decidable (Serves cfg request value) :=
  decidable_of_iff (value.len = request.totalLen ∧ 0 < request.totalLen ∧
      request.totalLen ≤ cfg.stageBytes ∧
      (value.poolUnits = 0 → value.heap.length = request.totalLen) ∧
      (0 < value.poolUnits → cfg.stageNocOk = true) ∧
      (0 < value.poolUnits → readOffOf cfg value ≠ 0) ∧ request.keyLen ≤ maxPutKeyBytes)
    ⟨fun ⟨len, positive, fits, sized, staged, past, key⟩ =>
        ⟨len, positive, fits, sized, staged, past, key⟩,
      fun serves => ⟨serves.len, serves.positive, serves.fits, serves.sized, serves.staged,
        serves.past, serves.key⟩⟩

/-! ## The worker -/

/-- Make the next write of the worker. The counts of chunks that are published are the
events of the system. -/
def writeEffect (state : State) : Effect → State × List Nat
  | .stage offset bytes => ({ state with mapping := state.mapping.write offset bytes }, [])
  | .stageProgress chunks => ({ state with stageProgress := chunks }, [chunks])
  | .commitReq request => ({ state with commitReadOff := request.stageReadOff }, [])
  | .commitReqSem count => ({ state with commitSem := count }, [])
  | _ => (state, [])

/-- The worker after a write: it goes on with the next one or waits for the reader. -/
def nextPhase : List Effect → HostPhase
  | [] => .awaiting
  | remaining => .writing remaining

/-- Take the request of the channel with the value that backs its slot. Both host workers
make these writes before they wait (`internal_moveToDevice`, `external_supply`). -/
def takeRequest (state : State) (value : HostValue) : State :=
  let issued := succ32 state.commitIssued
  { state with
    host := .writing (supplyEffects cfg state.request value issued)
    commitIssued := issued
    served := valueBytes cfg state.mapping value
    servedOff := readOffOf cfg value }

/-! ## The reader -/

/-- Look at the progress word, through the data cache. -/
def pollProgress (state : State) (base : Nat) : State :=
  let progress := state.cached.getD state.stageProgress
  if progress < base + thisBatch state.numChunks base then { state with cached := none }
  else { state with cached := some progress, brisc := .reading base fun _ => none }

/-- End the read of a batch, push it and go on with the next one. -/
def endRead (state : State) (base : Nat) (arrived : Nat → Option UInt8) : State :=
  let batch := (List.range (readBytes state base)).map fun index =>
    (arrived index).getD (state.mapping (readAddress state base index))
  let following := base + getValueCbReadBatch
  { state with
    batches := state.batches ++ [batch]
    brisc := if following < state.numChunks then .gated following else .drained }

/-- One step of the system. -/
def step (state : State) : Action → Option (State × List Nat)
  | .post request =>
    match state.brisc with
    | .idle =>
      if state.moveSem = state.moveProcessed ∧ cfg.stageNocOk = true ∧
          request.op = moveOpHostServe ∧ 0 < request.totalLen ∧ request.totalLen < 2 ^ 32 then
        some ({ state with
          request
          moveSem := succ32 state.moveSem
          batches := []
          brisc := .called }, [])
      else none
    | _ => none
  | .take value =>
    match state.host with
    | .idle =>
      if state.moveSem ≠ state.moveProcessed ∧ Serves cfg state.request value then
        some (takeRequest cfg state value, [])
      else none
    | _ => none
  | .visible index =>
    match state.host with
    | .writing (.stage offset bytes :: _) =>
      bytes[index]?.map fun byte =>
        ({ state with mapping := update state.mapping (offset + index) byte }, [])
    | _ => none
  | .write =>
    match state.host with
    | .writing (effect :: remaining) =>
      let written := writeEffect state effect
      some ({ written.1 with host := nextPhase remaining }, written.2)
    | _ => none
  | .observeCommit =>
    match state.brisc with
    | .called =>
      if state.commitSem ≠ state.commitSeen then
        some ({ state with
          commitSeen := state.commitSem
          cached := none
          stageReadOff := state.commitReadOff
          brisc := .gated 0 }, [])
      else none
    | _ => none
  | .prefetch =>
    if state.cached = none then some ({ state with cached := some state.stageProgress }, [])
    else none
  | .invalidate => some ({ state with cached := none }, [])
  | .poll =>
    match state.brisc with
    | .gated base => some (pollProgress state base, [])
    | _ => none
  | .arrive index =>
    match state.brisc with
    | .reading base arrived =>
      if index < readBytes state base ∧ arrived index = none then
        some ({ state with
          brisc := .reading base
            (update arrived index (some (state.mapping (readAddress state base index)))) }, [])
      else none
    | _ => none
  | .barrier =>
    match state.brisc with
    | .reading base arrived => some (endRead state base arrived, [])
    | _ => none
  | .giveUp =>
    match state.brisc with
    | .called => some ({ state with brisc := .terminated }, [])
    | .gated _ => some ({ state with brisc := .aborted }, [])
    | _ => none
  | .complete =>
    match state.brisc with
    | .drained => some ({ state with completion := state.commitSeen, brisc := .idle }, [])
    | .aborted => some ({ state with completion := state.commitSeen, brisc := .terminated }, [])
    | _ => none
  | .finish =>
    match state.host with
    | .awaiting =>
      if state.completion = state.commitIssued then
        some ({ state with moveProcessed := succ32 state.moveProcessed, host := .idle }, [])
      else none
    | _ => none
  | .stop =>
    match state.host with
    | .idle => some ({ state with host := .stopped }, [])
    | .awaiting => some ({ state with host := .stopped }, [])
    | _ => none
  | .otherMove mapping count =>
    match state.host, state.brisc with
    | .idle, .idle =>
      if state.moveSem = state.moveProcessed then
        some ({ state with
          mapping
          commitIssued := count
          commitSem := count
          commitSeen := count
          completion := count }, [])
      else none
    | _, _ => none

/-! ## What a count of chunks promises -/

/-- The bytes of the first chunks of the value are where the reader looks for them. -/
def Covered (state : State) (chunks : Nat) : Prop :=
  ∀ position < min state.served.length (chunks * maxChunkValueBytes),
    state.served[position]? = some (state.mapping (state.servedOff + position))

/-- The writes that the worker has still to make for its request. -/
def HostPhase.pending : HostPhase → List Effect
  | .writing remaining => remaining
  | _ => []

end KvCache.HostStream
