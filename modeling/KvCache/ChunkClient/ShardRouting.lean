import Mathlib.Logic.Function.Basic

/-!
# Routing of per-chip shards

With external servers every chip of the model mesh has a wire client of its own, which
is attached to the server shard of its flat index. A chunk is stored and restored by the
chips of the row that owns its blocks. Lookup and deletion know no row and use the row
of the wire master. The key of a shard names the tensor-parallel rank and leaves out the
row.

Server shards are directories of their own. The digest of a key is taken as the pair it
is computed from.
-/

namespace KvCache.ShardRouting

/-- A coordinate of the model mesh: the row and the tensor-parallel rank. -/
abbrev Coord := Nat × Nat

/-- The mesh, the number of server shards and the placement of the wire master. -/
structure Config where
  dp : Nat
  tp : Nat
  shards : Nat
  stage : Coord
  dpPositive : 0 < dp
  tpPositive : 0 < tp
  shardsPositive : 1 ≤ shards
  shardsBounded : shards ≤ 8
  stageRow : stage.1 < dp
  stageColumn : stage.2 < tp

variable (cfg : Config)

/-- The coordinate of the wire master; a mesh of one chip has none. -/
def Config.wireCoord : Option Coord :=
  if cfg.dp = 1 ∧ cfg.tp = 1 then none else some cfg.stage

/-- Row-major index of a coordinate. -/
def Config.flatChipIndex (coord : Coord) : Nat := (0 * cfg.dp + coord.1) * cfg.tp + coord.2

/-- The server shard a flat index is attached to. -/
def Config.externalRouteForFlat (flat : Nat) : Nat := flat % cfg.shards

/-- The flat index of the wire master. -/
def Config.masterFlat : Nat :=
  match cfg.wireCoord with
  | some coord => cfg.flatChipIndex coord
  | none => 0

/-! ## Attached clients -/

/-- The server shard of the master and of every client attached beside it, in the order of
attachment. -/
structure Clients where
  master : Nat
  shardClients : List (Coord × Nat)

/-- Attach a client to a coordinate that has none; the master serves its own. -/
def Config.attach (clients : Clients) (coord : Coord) : Clients :=
  if (clients.shardClients.lookup coord).isSome then clients
  else if cfg.wireCoord = some coord then clients
  else
    { clients with
      shardClients :=
        clients.shardClients ++ [(coord, cfg.externalRouteForFlat (cfg.flatChipIndex coord))] }

/-- The coordinates of the mesh in row-major order. -/
def Config.coordinates : List Coord :=
  (List.range cfg.dp).flatMap fun row => (List.range cfg.tp).map fun column => (row, column)

/-- Open attaches every coordinate of the mesh. -/
def Config.openExternal : Clients :=
  cfg.coordinates.foldl cfg.attach ⟨cfg.externalRouteForFlat cfg.masterFlat, []⟩

/-- The server shard of the client of a coordinate; there is none outside the mesh. -/
def Config.shardClient (coord : Coord) : Option Nat :=
  match cfg.openExternal.shardClients.lookup coord with
  | some shard => some shard
  | none => if cfg.wireCoord = some coord then some cfg.openExternal.master else none

/-- The server shard that lookup and deletion ask about a rank: the row of the master. -/
def Config.shardClientForRank (tpRank : Nat) : Option Nat :=
  cfg.shardClient ((cfg.wireCoord.getD (0, 0)).1, tpRank)

/-! ## The directories -/

universe u v
variable {Key : Type u} {Value : Type v}

/-- The directory of every server shard, and the shards with PUTs that no flush has drained. -/
structure State (Key : Type u) (Value : Type v) where
  directory : Nat → Key × Nat → Option Value
  undrained : Nat → Bool

/-- Empty directories. -/
def start : State Key Value := ⟨fun _ _ => none, fun _ => false⟩

/-- Store a value in the directory of a shard. -/
def State.put [DecidableEq Key] (state : State Key Value) (shard : Nat) (shardKey : Key × Nat)
    (value : Value) : State Key Value where
  directory := Function.update state.directory shard
    (Function.update (state.directory shard) shardKey (some value))
  undrained := Function.update state.undrained shard true

/-- Remove a key from the directory of a shard. -/
def State.erase [DecidableEq Key] (state : State Key Value) (shard : Nat) (shardKey : Key × Nat) :
    State Key Value :=
  { state with
    directory := Function.update state.directory shard
      (Function.update (state.directory shard) shardKey none) }

/-! ## Calls -/

/-- Each rank with the shard of its client in a row. -/
def Config.rowTargets (row : Nat) : Option (List (Nat × Nat)) :=
  (List.range cfg.tp).mapM fun tpRank => (cfg.shardClient (row, tpRank)).map (tpRank, ·)

/-- Each rank with the shard that is asked about it. -/
def Config.rankTargets : Option (List (Nat × Nat)) :=
  (List.range cfg.tp).mapM fun tpRank => (cfg.shardClientForRank tpRank).map (tpRank, ·)

/-- Store the value of each listed rank in its shard. -/
def State.putTargets [DecidableEq Key] (key : Key) (values : Nat → Value)
    (targets : List (Nat × Nat)) (state : State Key Value) : State Key Value :=
  targets.foldl (fun state target => state.put target.2 (key, target.1) (values target.1)) state

/-- Store one value for each rank through the clients of a row. A PUT that raises leaves the
ranks before it stored; `landed` counts those that did not raise. -/
def Config.putChunkPerChip [DecidableEq Key] (row : Nat) (key : Key) (values : Nat → Value)
    (landed : Nat) (state : State Key Value) : Option (State Key Value) :=
  (cfg.rowTargets row).map fun targets => state.putTargets key values (targets.take landed)

/-- Fetch the value of each rank through the clients of a row; one miss is a miss. -/
def Config.getChunkPerChip (row : Nat) (key : Key) (state : State Key Value) :
    Option (Option (List Value)) :=
  (cfg.rowTargets row).map fun targets =>
    targets.mapM fun target => state.directory target.2 (key, target.1)

/-- Every shard of the chunk is present. -/
def Config.existsChunk (key : Key) (state : State Key Value) : Option Bool :=
  cfg.rankTargets.map fun targets =>
    targets.all fun target => (state.directory target.2 (key, target.1)).isSome

/-- Delete the value of each listed rank from its shard; true if all were present. -/
def State.deleteTargets [DecidableEq Key] (key : Key) (targets : List (Nat × Nat))
    (state : State Key Value) : Bool × State Key Value :=
  targets.foldl (fun (found, state) target =>
    (found && (state.directory target.2 (key, target.1)).isSome,
      state.erase target.2 (key, target.1)))
    (true, state)

/-- Delete every shard of the chunk; true if all were present. -/
def Config.deleteChunk [DecidableEq Key] (key : Key) (state : State Key Value) :
    Option (Bool × State Key Value) :=
  cfg.rankTargets.map fun targets => state.deleteTargets key targets

/-- Keep the first client for each residue. -/
def Config.setDefault (representatives : List (Nat × Nat)) (client : Coord × Nat) :
    List (Nat × Nat) :=
  let residue := cfg.flatChipIndex client.1 % cfg.shards
  if (representatives.lookup residue).isSome then representatives
  else representatives ++ [(residue, client.2)]

/-- One client for each residue: the master first, then the attached ones. -/
def Config.representatives : List (Nat × Nat) :=
  cfg.openExternal.shardClients.foldl cfg.setDefault
    [(cfg.flatChipIndex (cfg.wireCoord.getD (0, 0)) % cfg.shards, cfg.openExternal.master)]

/-- Flush the representatives. -/
def Config.waitPutDone (state : State Key Value) : State Key Value :=
  { state with
    undrained := fun shard =>
      state.undrained shard && !(cfg.representatives.map Prod.snd).contains shard }

/-- A call of the connector. -/
inductive Call (Key : Type u) (Value : Type v) where
  | put (row : Nat) (key : Key) (values : Nat → Value) (landed : Nat)
  | get (row : Nat) (key : Key)
  | exists (key : Key)
  | delete (key : Key)
  | waitPutDone

/-- The directories after a call; none if it raised before it reached a server. -/
def Config.step [DecidableEq Key] (state : State Key Value) :
    Call Key Value → Option (State Key Value)
  | .put row key values landed => cfg.putChunkPerChip row key values landed state
  | .get row key => (cfg.getChunkPerChip row key state).map fun _ => state
  | .exists key => (cfg.existsChunk key state).map fun _ => state
  | .delete key => (cfg.deleteChunk key state).map Prod.snd
  | .waitPutDone => some (cfg.waitPutDone state)

/-- A call as a step without events. -/
def Config.move [DecidableEq Key] (state : State Key Value) (call : Call Key Value) :
    Option (State Key Value × List Empty) :=
  (cfg.step state call).map (·, [])

end KvCache.ShardRouting
