import KvCache.Foundation.EqualBlocks
import Mathlib.Logic.Function.Basic

/-!
# Coalesced chunks

A chunk has a K and a V tensor for each layer. The coalesced path concatenates the layers
of a group on their first dimension and stores one value for the K rows and one for the V
rows of a group, or one for both. The groups, the shapes that size the buffers of a GET and
the pool of buffers belong to the process.

A tensor is the list of its rows, which all have the same number of bytes. A wire GET
writes the value at the start of its buffer and raises when the buffer is too small.
-/

namespace KvCache.Coalesced

open EqualBlocks

universe u v
variable {Key : Type u} {Row : Type v}

/-- The K and V rows of every layer of a chunk; all layers have the same number of rows. -/
structure Chunk (Row : Type v) (numLayers : Nat) where
  blocks : Nat
  kList : Nat → List Row
  vList : Nat → List Row
  positive : 0 < blocks
  kRows : ∀ layer < numLayers, (kList layer).length = blocks
  vRows : ∀ layer < numLayers, (vList layer).length = blocks

/-- The options of the client; `poolBlocks` is the row count of a layer in the pool that
open allocated, if it did. -/
structure Config where
  numLayers : Nat
  coalesceCapBytes : Nat
  kvMerge : Bool
  bufReuse : Bool
  rowBytes : Nat
  poolBlocks : Option Nat

/-- The component of a wire key. -/
inductive Component where
  | kv
  | kg
  | vg
deriving DecidableEq

/-- A wire key; the digest of a key is taken as what it is computed from. -/
abbrev WireKey (Key : Type u) := Key × Nat × Component

/-- What the client keeps between calls. -/
structure Client (Row : Type v) where
  coalesceGroups : Option (List (List Nat))
  coalesceGroupShapes : Nat → Option (Nat × Nat)
  poolAllocated : Bool
  poolShapeValidated : Bool
  poolShapeOk : Bool
  poolPutStageK : Nat → List Row
  poolPutStageV : Nat → List Row
  poolGetKg : Nat → Option (List Row)
  poolGetVg : Nat → Option (List Row)
  poolGetKv : Nat → Option (List Row)

/-- The client, the values on the server, and for the statement the chunk that was last
put under a key and the row count of the first chunk put. -/
structure System (Key : Type u) (Row : Type v) (numLayers : Nat) where
  client : Client Row
  wire : WireKey Key → Option (List Row)
  lastPut : Key → Option (Chunk Row numLayers)
  firstBlocks : Option Nat

variable (cfg : Config)

/-- A buffer of uninitialised rows. -/
def uninitialised (garbage : Nat → Row) (rows : Nat) : List Row := (List.range rows).map garbage

/-- Partition the layers into groups whose values fit the cap. -/
def Config.buildGroupPlan (perLayerBytes : Nat) : List (List Nat) :=
  let effPerLayer := perLayerBytes * if cfg.kvMerge then 2 else 1
  groups (max 1 (cfg.coalesceCapBytes / max 1 effPerLayer)) cfg.numLayers

/-- Open builds the plan and the pool where the geometry is known. -/
def Config.initPlanAndPool (garbage : Nat → Row) : Client Row :=
  match cfg.poolBlocks with
  | none =>
    { coalesceGroups := none
      coalesceGroupShapes := fun _ => none
      poolAllocated := false
      poolShapeValidated := false
      poolShapeOk := false
      poolPutStageK := fun _ => []
      poolPutStageV := fun _ => []
      poolGetKg := fun _ => none
      poolGetVg := fun _ => none
      poolGetKv := fun _ => none }
  | some nb =>
    let plan := cfg.buildGroupPlan (nb * cfg.rowBytes)
    let outBuffer := fun (gid : Nat) =>
      plan[gid]?.map fun group => uninitialised garbage (group.length * nb)
    { coalesceGroups := some plan
      coalesceGroupShapes := fun _ => none
      poolAllocated := true
      poolShapeValidated := false
      poolShapeOk := false
      poolPutStageK := fun _ => uninitialised garbage nb
      poolPutStageV := fun _ => uninitialised garbage nb
      poolGetKg := if cfg.kvMerge then fun _ => none else outBuffer
      poolGetVg := if cfg.kvMerge then fun _ => none else outBuffer
      poolGetKv := if cfg.kvMerge then fun gid =>
          plan[gid]?.map fun group => uninitialised garbage (2 * group.length * nb)
        else fun _ => none }

/-- An open client and an empty server. -/
def Config.openSystem (garbage : Nat → Row) : System Key Row cfg.numLayers where
  client := cfg.initPlanAndPool garbage
  wire := fun _ => none
  lastPut := fun _ => none
  firstBlocks := none

/-! ## Store -/

/-- The plan that a chunk is stored by: the one there is, or one for its own size. -/
def Config.plan (client : Client Row) (blocks : Nat) : List (List Nat) :=
  client.coalesceGroups.getD (cfg.buildGroupPlan (blocks * cfg.rowBytes))

/-- Compare the shape of the pool with that of the first chunk, once. -/
def Config.validatePool (client : Client Row) (blocks : Nat) : Client Row :=
  if client.poolAllocated && !client.poolShapeValidated then
    { client with
      poolShapeValidated := true
      poolShapeOk := decide (cfg.poolBlocks = some blocks) }
  else client

/-- Copy the tensors of some layers into their staging buffers. -/
def copyToStage (source : Nat → List Row) (stage : Nat → List Row) (layers : List Nat) :
    Nat → List Row :=
  fun layer => if layer ∈ layers then source layer else stage layer

/-- Concatenate on the first dimension; one tensor is taken as it is. -/
def concat (tensors : List (List Row)) : List Row :=
  if 1 < tensors.length then tensors.flatten else tensors.headD []

section

variable [DecidableEq Key] {cfg} {numLayers : Nat}

/-- Store the value under a wire key. -/
def System.wirePut (system : System Key Row numLayers) (wireKey : WireKey Key)
    (value : List Row) : System Key Row numLayers :=
  { system with wire := Function.update system.wire wireKey (some value) }

variable (cfg)

/-- Store one group of layers and record its shapes unless some are recorded. -/
def Config.putGroup (key : Key) (chunk : Chunk Row cfg.numLayers) (onDevice reuse : Bool)
    (gid : Nat) (layerIdxs : List Nat) (system : System Key Row cfg.numLayers) :
    System Key Row cfg.numLayers :=
  let staging := !onDevice && reuse
  let stageK := if staging then
    copyToStage chunk.kList system.client.poolPutStageK layerIdxs else system.client.poolPutStageK
  let stageV := if staging then
    copyToStage chunk.vList system.client.poolPutStageV layerIdxs else system.client.poolPutStageV
  let kg := concat (layerIdxs.map (if staging then stageK else chunk.kList))
  let vg := concat (layerIdxs.map (if staging then stageV else chunk.vList))
  let stored := if cfg.kvMerge then system.wirePut (key, gid, .kv) (kg ++ vg)
    else (system.wirePut (key, gid, .kg) kg).wirePut (key, gid, .vg) vg
  { stored with
    client := { stored.client with
      poolPutStageK := stageK
      poolPutStageV := stageV
      coalesceGroupShapes := Function.update stored.client.coalesceGroupShapes gid
        (some ((stored.client.coalesceGroupShapes gid).getD (kg.length, vg.length))) } }

/-- Store the groups in order. -/
def Config.putGroups (key : Key) (chunk : Chunk Row cfg.numLayers) (onDevice reuse : Bool) :
    Nat → List (List Nat) → System Key Row cfg.numLayers → System Key Row cfg.numLayers
  | _, [], system => system
  | gid, layerIdxs :: rest, system =>
    putGroups key chunk onDevice reuse (gid + 1) rest
      (cfg.putGroup key chunk onDevice reuse gid layerIdxs system)

/-- Store a chunk. -/
def Config.putChunkCoalesced (key : Key) (chunk : Chunk Row cfg.numLayers) (onDevice : Bool)
    (system : System Key Row cfg.numLayers) : System Key Row cfg.numLayers :=
  if cfg.numLayers = 0 then system
  else
    let plan := cfg.plan system.client chunk.blocks
    let client := cfg.validatePool { system.client with coalesceGroups := some plan } chunk.blocks
    let reuse := !onDevice && cfg.bufReuse && client.poolAllocated && client.poolShapeOk &&
      decide (cfg.poolBlocks = some chunk.blocks)
    cfg.putGroups key chunk onDevice reuse 0 plan
      { system with
        client := client
        lastPut := Function.update system.lastPut key (some chunk)
        firstBlocks := some (system.firstBlocks.getD chunk.blocks) }

end

/-! ## Fetch -/

/-- How a fetch ends. -/
inductive Fetch (α : Type v) where
  | found (value : α)
  | missing
  | raised

/-- A wire GET into a buffer: the buffer afterwards and whether the value was there. -/
def wireGet (value : Option (List Row)) (buffer : List Row) : Fetch (List Row) :=
  match value with
  | none => .missing
  | some value => if value.length ≤ buffer.length then .found (overwrite value buffer) else .raised

/-- The buffer after a wire GET. -/
def Fetch.buffer (fetch : Fetch (List Row)) (before : List Row) : List Row :=
  match fetch with
  | .found after => after
  | _ => before

/-- The K and V rows of a layer. -/
abbrev Restored (Row : Type v) := Nat × List Row × List Row

/-- Cut the layers of a group out of the K rows and the V rows. -/
def splitLayers (layerIdxs : List Nat) (nb : Nat) (kRegion vRegion : List Row) :
    List (Restored Row) :=
  layerIdxs.zipIdx.map fun (layer, j) =>
    (layer, slice kRegion (j * nb) (j * nb + nb), slice vRegion (j * nb) (j * nb + nb))

/-- Cut the layers of a group out of a merged value whose V rows start at `half`. -/
def splitMerged (layerIdxs : List Nat) (nb half : Nat) (kvOut : List Row) : List (Restored Row) :=
  layerIdxs.zipIdx.map fun (layer, j) =>
    (layer, slice kvOut (j * nb) (j * nb + nb),
      slice kvOut (half + j * nb) (half + j * nb + nb))

/-- The buffer of the pool if its size is the one wanted, else a new one; and whether it is
the buffer of the pool. -/
def outBuffer (reuse : Bool) (pooled : Option (List Row)) (rows : Nat) (garbage : Nat → Row) :
    List Row × Bool :=
  match pooled with
  | some buffer =>
    if reuse ∧ buffer.length = rows then (buffer, true) else (uninitialised garbage rows, false)
  | none => (uninitialised garbage rows, false)

/-- Leave what a GET wrote in the buffer of the pool, if it was one. -/
def keep (pooled : Bool) (gid : Nat) (buffer : List Row) (pool : Nat → Option (List Row)) :
    Nat → Option (List Row) :=
  if pooled then Function.update pool gid (some buffer) else pool

/-- The buffers of the pool may be used. -/
def Config.reuse (client : Client Row) : Bool :=
  cfg.bufReuse && client.poolAllocated && client.poolShapeOk

/-- The buffers of the pool for K and for V have the sizes wanted. -/
def Config.reusePair (client : Client Row) (gid kRows vRows : Nat) : Bool :=
  cfg.reuse client && (client.poolGetKg gid).any (·.length = kRows) &&
    (client.poolGetVg gid).any (·.length = vRows)

/-- Fetch a group stored as one value. -/
def Config.getMerged (wire : WireKey Key → Option (List Row)) (key : Key) (garbage : Nat → Row)
    (gid : Nat) (layerIdxs : List Nat) (kRows vRows : Nat) (client : Client Row) :
    Client Row × Fetch (List (Restored Row)) :=
  let (kvOut, pooled) :=
    outBuffer (cfg.reuse client) (client.poolGetKv gid) (kRows + vRows) garbage
  let hit := wireGet (wire (key, gid, .kv)) kvOut
  ({ client with poolGetKv := keep pooled gid (hit.buffer kvOut) client.poolGetKv },
    match hit with
    | .found kvOut => .found (splitMerged layerIdxs (kRows / layerIdxs.length) kRows kvOut)
    | .missing => .missing
    | .raised => .raised)

/-- Fetch a group stored as two values; a GET of K that raises is not followed by one of V. -/
def Config.getPair (wire : WireKey Key → Option (List Row)) (key : Key) (garbage : Nat → Row)
    (gid : Nat) (layerIdxs : List Nat) (kRows vRows : Nat) (client : Client Row) :
    Client Row × Fetch (List (Restored Row)) :=
  let reuse := cfg.reusePair client gid kRows vRows
  let (kOut, pooled) := outBuffer reuse (client.poolGetKg gid) kRows garbage
  let (vOut, _) := outBuffer reuse (client.poolGetVg gid) vRows garbage
  let hitK := wireGet (wire (key, gid, .kg)) kOut
  let hitV := wireGet (wire (key, gid, .vg)) vOut
  let afterK :=
    { client with poolGetKg := keep pooled gid (hitK.buffer kOut) client.poolGetKg }
  let afterV :=
    { afterK with poolGetVg := keep pooled gid (hitV.buffer vOut) client.poolGetVg }
  match hitK, hitV with
  | .raised, _ => (afterK, .raised)
  | _, .raised => (afterV, .raised)
  | .found kOut, .found vOut =>
    (afterV, .found (splitLayers layerIdxs (kRows / layerIdxs.length) kOut vOut))
  | _, _ => (afterV, .missing)

/-- Fetch one group of layers. -/
def Config.getGroup (wire : WireKey Key → Option (List Row)) (key : Key) (garbage : Nat → Row)
    (gid : Nat) (layerIdxs : List Nat) (client : Client Row) :
    Client Row × Fetch (List (Restored Row)) :=
  match client.coalesceGroupShapes gid with
  | none => (client, .missing)
  | some (kRows, vRows) =>
    if cfg.kvMerge then cfg.getMerged wire key garbage gid layerIdxs kRows vRows client
    else cfg.getPair wire key garbage gid layerIdxs kRows vRows client

/-- Fetch the groups in order; the first that is missing or raises ends the call. -/
def Config.getGroups (wire : WireKey Key → Option (List Row)) (key : Key) (garbage : Nat → Row) :
    Nat → List (List Nat) → Client Row → Client Row × Fetch (List (Restored Row))
  | _, [], client => (client, .found [])
  | gid, layerIdxs :: rest, client =>
    match cfg.getGroup wire key garbage gid layerIdxs client with
    | (after, .found front) =>
      match getGroups wire key garbage (gid + 1) rest after with
      | (last, .found back) => (last, .found (front ++ back))
      | ended => ended
    | ended => ended

/-- Fetch a chunk. -/
def Config.getChunkCoalesced (system : System Key Row cfg.numLayers) (key : Key)
    (garbage : Nat → Row) : Client Row × Fetch (List (Restored Row)) :=
  match system.client.coalesceGroups with
  | none => (system.client, .missing)
  | some plan => cfg.getGroups system.wire key garbage 0 plan system.client

/-! ## Runs -/

/-- A call of the client, or the loss of a value by the server. -/
inductive Call (Key : Type u) (Row : Type v) (numLayers : Nat) where
  | put (key : Key) (chunk : Chunk Row numLayers) (onDevice : Bool)
  | get (key : Key) (garbage : Nat → Row)
  | lose (wireKey : WireKey Key)

/-- The system after a call. -/
def Config.step [DecidableEq Key] (system : System Key Row cfg.numLayers) :
    Call Key Row cfg.numLayers → Option (System Key Row cfg.numLayers × List Empty)
  | .put key chunk onDevice => some (cfg.putChunkCoalesced key chunk onDevice system, [])
  | .get key garbage =>
    some ({ system with client := (cfg.getChunkCoalesced system key garbage).1 }, [])
  | .lose wireKey =>
    some ({ system with wire := Function.update system.wire wireKey none }, [])

end KvCache.Coalesced
