import KvCache.ChunkClient.ShardRouting
import KvCache.Foundation.Run
import KvCache.Foundation.Traverse
import Mathlib.Data.List.Nodup
import Mathlib.Data.Nat.ModEq

/-!
# Agreement of the shards of a chunk

The client of a coordinate is attached to the shard of its flat index, the master
included. Rows therefore name the same shard for a rank exactly when a whole row of ranks
is a multiple of the number of shards, or when there is one row. Then a chunk that any row
stores is found, restored by every row and removed. The flush covers every shard in any
case.
-/

namespace KvCache.ShardRouting

open Run Traverse

universe u v
variable (cfg : Config)

/-! ## Attachment -/

/-- The shard of the flat index of a coordinate. -/
def Config.route (coord : Coord) : Nat := cfg.externalRouteForFlat (cfg.flatChipIndex coord)

/-- The coordinate lies in the mesh. -/
def Config.Inside (coord : Coord) : Prop := coord.1 < cfg.dp ∧ coord.2 < cfg.tp

/-- The attached clients are those of the coordinates seen, without the wire master. -/
structure Config.Attached (clients : Clients) (seen : List Coord) : Prop where
  master : clients.master = cfg.externalRouteForFlat cfg.masterFlat
  routed : ∀ coord, clients.shardClients.lookup coord =
    if coord ∈ seen ∧ cfg.wireCoord ≠ some coord then some (cfg.route coord) else none
  members : ∀ client ∈ clients.shardClients, client.1 ∈ seen ∧ client.2 = cfg.route client.1

variable {cfg}

theorem Config.Attached.attach {clients : Clients} {seen : List Coord}
    (attached : cfg.Attached clients seen) (coord : Coord) :
    cfg.Attached (cfg.attach clients coord) (seen ++ [coord]) := by
  have routed := attached.routed
  have known := routed coord
  unfold Config.attach
  split
  · rename_i present
    rw [known] at present
    have inside : coord ∈ seen := by
      by_contra outside
      simp [outside] at present
    exact ⟨attached.master, fun other => by rw [routed other]; grind,
      fun client member => by grind [attached.members client member]⟩
  · rename_i absent
    split
    · exact ⟨attached.master, fun other => by rw [routed other]; grind,
        fun client member => by grind [attached.members client member]⟩
    · rename_i beside
      refine ⟨attached.master, fun other => ?_, fun client member => ?_⟩
      · rw [List.lookup_append, routed other]
        by_cases same : other = coord
        · subst same
          have unseen : other ∉ seen := by
            intro inside
            simp [known, inside, beside] at absent
          simp [unseen, beside, Config.route]
        · have differ : (other == coord) = false := by simp [same]
          simp [List.lookup_cons, differ, same]
      · rcases List.mem_append.mp member with earlier | added
        · grind [attached.members client earlier]
        · rw [List.mem_singleton] at added
          subst client
          simp [Config.route]

theorem Config.Attached.foldl {clients : Clients} {seen : List Coord}
    (attached : cfg.Attached clients seen) (coords : List Coord) :
    cfg.Attached (coords.foldl cfg.attach clients) (seen ++ coords) := by
  induction coords generalizing clients seen with
  | nil => simpa using attached
  | cons coord rest inductionHypothesis =>
    simpa using inductionHypothesis (attached.attach coord)

theorem mem_coordinates (coord : Coord) : coord ∈ cfg.coordinates ↔ cfg.Inside coord := by
  obtain ⟨row, column⟩ := coord
  simp [Config.coordinates, Config.Inside]

/-- Open attaches the clients of the whole mesh. -/
theorem attached_openExternal : cfg.Attached cfg.openExternal cfg.coordinates := by
  have empty : cfg.Attached ⟨cfg.externalRouteForFlat cfg.masterFlat, []⟩ [] :=
    ⟨rfl, by simp, by simp⟩
  exact empty.foldl cfg.coordinates

theorem wireCoord_inside {coord : Coord} (master : cfg.wireCoord = some coord) :
    cfg.Inside coord := by
  unfold Config.wireCoord at master
  split at master
  · cases master
  · cases master
    exact ⟨cfg.stageRow, cfg.stageColumn⟩

/-- Every coordinate of the mesh has a client, attached to the shard of its flat index. -/
theorem shardClient_inside {coord : Coord} (inside : cfg.Inside coord) :
    cfg.shardClient coord = some (cfg.route coord) := by
  unfold Config.shardClient
  have attached : cfg.Attached cfg.openExternal cfg.coordinates := attached_openExternal
  rw [attached.routed coord]
  by_cases master : cfg.wireCoord = some coord
  · simp [master, attached.master, Config.masterFlat, Config.route]
  · simp [(mem_coordinates coord).mpr inside, master]

/-- No coordinate outside the mesh has a client. -/
theorem shardClient_outside {coord : Coord} (outside : ¬ cfg.Inside coord) :
    cfg.shardClient coord = none := by
  unfold Config.shardClient
  have attached : cfg.Attached cfg.openExternal cfg.coordinates := attached_openExternal
  have other : cfg.wireCoord ≠ some coord := fun master => outside (wireCoord_inside master)
  rw [attached.routed coord]
  simp [mt (mem_coordinates coord).mp outside, other]

/-! ## Targets -/

variable (cfg) in
/-- The row of the wire master. -/
def Config.masterRow : Nat := (cfg.wireCoord.getD (0, 0)).1

theorem masterRow_bounded : cfg.masterRow < cfg.dp := by
  unfold Config.masterRow
  cases master : cfg.wireCoord with
  | none => exact cfg.dpPositive
  | some coord => exact (wireCoord_inside master).1

theorem shardClientForRank_eq {rank : Nat} (bounded : rank < cfg.tp) :
    cfg.shardClientForRank rank = some (cfg.route (cfg.masterRow, rank)) :=
  shardClient_inside ⟨masterRow_bounded, bounded⟩

variable (cfg) in
/-- Every rank with the shard its flat index has in a row. -/
def Config.targetsIn (row : Nat) : List (Nat × Nat) :=
  (List.range cfg.tp).map fun rank => (rank, cfg.route (row, rank))

theorem mem_targetsIn {row rank shard : Nat} :
    (rank, shard) ∈ cfg.targetsIn row ↔ rank < cfg.tp ∧ shard = cfg.route (row, rank) := by
  simp only [Config.targetsIn, List.mem_map, List.mem_range, Prod.mk.injEq]
  grind

theorem nodup_targetsIn (row : Nat) : (cfg.targetsIn row).Nodup :=
  List.Nodup.map (fun _ _ same => (Prod.mk.inj same).1) List.nodup_range

theorem rowTargets_inside {row : Nat} (bounded : row < cfg.dp) :
    cfg.rowTargets row = some (cfg.targetsIn row) :=
  mapM_defined _ _ _ fun rank member => by
    rw [shardClient_inside ⟨bounded, List.mem_range.mp member⟩]
    rfl

theorem rowTargets_outside {row : Nat} (outside : ¬ row < cfg.dp) : cfg.rowTargets row = none := by
  unfold Config.rowTargets
  obtain ⟨width, wide⟩ := Nat.exists_eq_add_of_lt cfg.tpPositive
  have missing : cfg.shardClient (row, 0) = none := shardClient_outside fun inside => outside inside.1
  rw [wide, Nat.zero_add, List.range_succ_eq_map, List.mapM_cons, missing]
  rfl

theorem rankTargets_eq : cfg.rankTargets = some (cfg.targetsIn cfg.masterRow) :=
  mapM_defined _ _ _ fun rank member => by
    rw [shardClientForRank_eq (List.mem_range.mp member)]
    rfl

/-! ## What a call does to the directories -/

section Directories

variable {Key : Type u} {Value : Type v} [DecidableEq Key]

theorem State.put_directory (state : State Key Value) (shard other : Nat)
    (shardKey otherKey : Key × Nat) (value : Value) :
    (state.put shard shardKey value).directory other otherKey =
      if other = shard ∧ otherKey = shardKey then some value else state.directory other otherKey := by
  simp only [State.put, Function.update_apply]
  grind

theorem State.erase_directory (state : State Key Value) (shard other : Nat)
    (shardKey otherKey : Key × Nat) :
    (state.erase shard shardKey).directory other otherKey =
      if other = shard ∧ otherKey = shardKey then none else state.directory other otherKey := by
  simp only [State.erase, Function.update_apply]
  grind

/-- A store puts the value of each target where the target says and changes nothing else. -/
theorem State.putTargets_directory (state : State Key Value) (key other : Key)
    (values : Nat → Value) (targets : List (Nat × Nat)) (shard rank : Nat) :
    (state.putTargets key values targets).directory shard (other, rank) =
      if other = key ∧ (rank, shard) ∈ targets then some (values rank)
      else state.directory shard (other, rank) := by
  induction targets generalizing state with
  | nil => simp [State.putTargets]
  | cons target rest inductionHypothesis =>
    have unfolded : state.putTargets key values (target :: rest) =
        (state.put target.2 (key, target.1) (values target.1)).putTargets key values rest := rfl
    rw [unfolded, inductionHypothesis, State.put_directory]
    grind

/-- A store leaves PUTs to flush in the shards of its targets. -/
theorem State.putTargets_undrained (state : State Key Value) (key : Key) (values : Nat → Value)
    (targets : List (Nat × Nat)) (shard : Nat) :
    (state.putTargets key values targets).undrained shard = true ↔
      state.undrained shard = true ∨ ∃ rank, (rank, shard) ∈ targets := by
  induction targets generalizing state with
  | nil => simp [State.putTargets]
  | cons target rest inductionHypothesis =>
    have unfolded : state.putTargets key values (target :: rest) =
        (state.put target.2 (key, target.1) (values target.1)).putTargets key values rest := rfl
    rw [unfolded, inductionHypothesis]
    obtain ⟨first, place⟩ := target
    simp only [State.put, Function.update_apply, List.mem_cons, Prod.mk.injEq]
    grind

/-- The fold behind a deletion, from any flag. -/
theorem State.deleteTargets_fold (key : Key) (targets : List (Nat × Nat)) (found : Bool)
    (state : State Key Value) (distinct : targets.Nodup) :
    let last := targets.foldl (fun (found, state) target =>
      (found && (state.directory target.2 (key, target.1)).isSome,
        state.erase target.2 (key, target.1))) (found, state)
    (last.1 = (found && targets.all fun target =>
      (state.directory target.2 (key, target.1)).isSome)) ∧
    (∀ shard other rank, last.2.directory shard (other, rank) =
      if other = key ∧ (rank, shard) ∈ targets then none else state.directory shard (other, rank)) ∧
    last.2.undrained = state.undrained := by
  induction targets generalizing found state with
  | nil => simp
  | cons target rest inductionHypothesis =>
    obtain ⟨fresh, distinctRest⟩ := List.nodup_cons.mp distinct
    obtain ⟨flag, directories, undrained⟩ := inductionHypothesis
      (found && (state.directory target.2 (key, target.1)).isSome)
      (state.erase target.2 (key, target.1)) distinctRest
    have untouched : (rest.all fun other =>
        ((state.erase target.2 (key, target.1)).directory other.2 (key, other.1)).isSome) =
        rest.all fun other => (state.directory other.2 (key, other.1)).isSome := by
      rw [Bool.eq_iff_iff, List.all_eq_true, List.all_eq_true]
      refine forall₂_congr fun other member => ?_
      have differ : ¬ (other.2 = target.2 ∧ (key, other.1) = (key, target.1)) := by
        rintro ⟨sameShard, sameKey⟩
        exact fresh ((Prod.ext (Prod.mk.inj sameKey).2 sameShard : other = target) ▸ member)
      rw [State.erase_directory, if_neg differ]
    refine ⟨?_, fun shard other rank => ?_, undrained⟩
    · rw [List.foldl_cons, flag, untouched, List.all_cons, Bool.and_assoc]
    · rw [List.foldl_cons, directories, State.erase_directory]
      grind

variable (key : Key) (targets : List (Nat × Nat)) (state : State Key Value)

/-- A deletion reports whether every target was present. -/
theorem State.deleteTargets_found (distinct : targets.Nodup) :
    (state.deleteTargets key targets).1 =
      targets.all fun target => (state.directory target.2 (key, target.1)).isSome := by
  obtain ⟨flag, -, -⟩ := State.deleteTargets_fold key targets true state distinct
  exact flag.trans (Bool.true_and _)

/-- A deletion removes every target and changes nothing else. -/
theorem State.deleteTargets_directory (distinct : targets.Nodup) (other : Key)
    (shard rank : Nat) :
    (state.deleteTargets key targets).2.directory shard (other, rank) =
      if other = key ∧ (rank, shard) ∈ targets then none
      else state.directory shard (other, rank) := by
  obtain ⟨-, directories, -⟩ := State.deleteTargets_fold key targets true state distinct
  exact directories shard other rank

theorem State.deleteTargets_undrained (distinct : targets.Nodup) :
    (state.deleteTargets key targets).2.undrained = state.undrained := by
  obtain ⟨-, -, undrained⟩ := State.deleteTargets_fold key targets true state distinct
  exact undrained

end Directories

/-! ## Runs -/

section Runs

variable (Key : Type u) (Value : Type v) [DecidableEq Key]

variable (cfg) in
/-- The states that calls of any rows, keys and orders reach. -/
def Config.Reached (state : State Key Value) : Prop :=
  Reachable (Takes (@Config.move cfg Key Value _)) start state

variable (cfg) in
/-- Every row, lookup and deletion address one shard for a rank. -/
def Config.RoutesAgree : Prop :=
  ∀ row < cfg.dp, ∀ rank < cfg.tp, ∃ shard,
    cfg.shardClient (row, rank) = some shard ∧ cfg.shardClientForRank rank = some shard

variable (cfg) in
/-- A chunk that some row stored in a reachable state is found, restored by every row and
removed from every shard. -/
def Config.StoresAgree : Prop :=
  ∀ state : State Key Value, cfg.Reached Key Value state →
    ∀ (key : Key) (values : Nat → Value), ∀ row < cfg.dp,
      ∃ stored, cfg.putChunkPerChip row key values cfg.tp state = some stored ∧
        cfg.existsChunk key stored = some true ∧
        (∀ reader < cfg.dp,
          cfg.getChunkPerChip reader key stored = some (some ((List.range cfg.tp).map values))) ∧
        ∃ deleted, cfg.deleteChunk key stored = some (true, deleted) ∧
          ∀ shard rank, deleted.directory shard (key, rank) = none

variable (cfg) in
/-- The flush drains every shard that received a PUT. -/
def Config.FlushesAll : Prop :=
  ∀ state : State Key Value, cfg.Reached Key Value state →
    ∀ shard, (cfg.waitPutDone state).undrained shard = false

variable (cfg) in
/-- There is one row, or the shards divide a row. -/
def Config.RowsCongruent : Prop := cfg.dp = 1 ∨ cfg.shards ∣ cfg.tp

variable {Key Value}

variable (cfg) in
/-- Values lie in the shard that lookup asks. -/
def Config.WellPlaced (state : State Key Value) : Prop :=
  ∀ shard key rank, state.directory shard (key, rank) ≠ none →
    (rank, shard) ∈ cfg.targetsIn cfg.masterRow

variable (cfg) in
/-- PUTs to flush are in the shards of the mesh. -/
def Config.DrainsInside (state : State Key Value) : Prop :=
  ∀ shard, state.undrained shard = true → ∃ coord, cfg.Inside coord ∧ shard = cfg.route coord

theorem route_congruent (congruent : cfg.RowsCongruent) {row other : Nat}
    (bounded : row < cfg.dp) (otherBounded : other < cfg.dp) (rank : Nat) :
    cfg.route (row, rank) = cfg.route (other, rank) := by
  simp only [Config.route, Config.externalRouteForFlat, Config.flatChipIndex, Nat.zero_mul,
    Nat.zero_add]
  rcases congruent with single | ⟨rows, whole⟩
  · have same : row = other := by omega
    rw [same]
  · rw [whole, Nat.mul_left_comm, Nat.mul_left_comm other, Nat.mul_add_mod, Nat.mul_add_mod]

theorem targetsIn_congruent (congruent : cfg.RowsCongruent) {row : Nat} (bounded : row < cfg.dp) :
    cfg.targetsIn row = cfg.targetsIn cfg.masterRow := by
  unfold Config.targetsIn
  exact List.map_congr_left fun rank _ =>
    by rw [route_congruent congruent bounded masterRow_bounded]

/-- A call keeps values where lookup asks. -/
theorem Config.WellPlaced.step (congruent : cfg.RowsCongruent) {state after : State Key Value}
    {call : Call Key Value} (placed : cfg.WellPlaced state)
    (stepped : cfg.step state call = some after) : cfg.WellPlaced after := by
  cases call with
  | put row key values landed =>
    by_cases bounded : row < cfg.dp
    · simp only [Config.step, Config.putChunkPerChip, rowTargets_inside bounded,
        Option.map_some, Option.some.injEq] at stepped
      subst after
      intro shard other rank present
      rw [State.putTargets_directory] at present
      split at present
      · rename_i written
        rw [← targetsIn_congruent congruent bounded]
        exact List.mem_of_mem_take written.2
      · exact placed shard other rank present
    · simp [Config.step, Config.putChunkPerChip, rowTargets_outside bounded] at stepped
  | get row key =>
    simp only [Config.step, Option.map_eq_some_iff] at stepped
    obtain ⟨_, -, rfl⟩ := stepped
    exact placed
  | «exists» key =>
    simp only [Config.step, Option.map_eq_some_iff] at stepped
    obtain ⟨_, -, rfl⟩ := stepped
    exact placed
  | delete key =>
    simp only [Config.step, Config.deleteChunk, rankTargets_eq, Option.map_some,
      Option.some.injEq] at stepped
    subst after
    intro shard other rank present
    rw [State.deleteTargets_directory _ _ _ (nodup_targetsIn _)] at present
    split at present
    · exact absurd rfl present
    · exact placed shard other rank present
  | waitPutDone =>
    cases stepped
    exact placed

/-- A call leaves PUTs to flush in shards of the mesh only. -/
theorem Config.DrainsInside.step {state after : State Key Value} {call : Call Key Value}
    (drains : cfg.DrainsInside state) (stepped : cfg.step state call = some after) :
    cfg.DrainsInside after := by
  cases call with
  | put row key values landed =>
    by_cases bounded : row < cfg.dp
    · simp only [Config.step, Config.putChunkPerChip, rowTargets_inside bounded,
        Option.map_some, Option.some.injEq] at stepped
      subst after
      intro shard waiting
      rcases (State.putTargets_undrained _ _ _ _ _).mp waiting with earlier | ⟨rank, target⟩
      · exact drains shard earlier
      · obtain ⟨rankBounded, routed⟩ := mem_targetsIn.mp (List.mem_of_mem_take target)
        exact ⟨(row, rank), ⟨bounded, rankBounded⟩, routed⟩
    · simp [Config.step, Config.putChunkPerChip, rowTargets_outside bounded] at stepped
  | get row key =>
    simp only [Config.step, Option.map_eq_some_iff] at stepped
    obtain ⟨_, -, rfl⟩ := stepped
    exact drains
  | «exists» key =>
    simp only [Config.step, Option.map_eq_some_iff] at stepped
    obtain ⟨_, -, rfl⟩ := stepped
    exact drains
  | delete key =>
    simp only [Config.step, Config.deleteChunk, rankTargets_eq, Option.map_some,
      Option.some.injEq] at stepped
    subst after
    intro shard waiting
    rw [State.deleteTargets_undrained _ _ _ (nodup_targetsIn _)] at waiting
    exact drains shard waiting
  | waitPutDone =>
    cases stepped
    intro shard waiting
    exact drains shard (Bool.and_eq_true_iff.mp waiting).1

/-- A property that holds of empty directories and that every call keeps holds in every
state reached. -/
theorem Config.Reached.invariant {state : State Key Value} (reached : cfg.Reached Key Value state)
    (Kept : State Key Value → Prop) (initial : Kept start)
    (preserved : ∀ state after call, Kept state → cfg.step state call = some after → Kept after) :
    Kept state := by
  obtain ⟨trace, run⟩ := reached
  refine run.invariant Kept initial ?_
  rintro state events after kept ⟨call, moved⟩
  simp only [Config.move, Option.map_eq_some_iff, Prod.mk.injEq] at moved
  obtain ⟨_, stepped, rfl, -⟩ := moved
  exact preserved state _ call kept stepped

theorem wellPlaced_reached (congruent : cfg.RowsCongruent) {state : State Key Value}
    (reached : cfg.Reached Key Value state) : cfg.WellPlaced state :=
  reached.invariant _ (fun _ _ _ present => absurd rfl present) fun _ _ _ placed stepped =>
    placed.step congruent stepped

theorem drainsInside_reached {state : State Key Value}
    (reached : cfg.Reached Key Value state) : cfg.DrainsInside state :=
  reached.invariant _ (fun _ waiting => absurd waiting Bool.false_ne_true)
    fun _ _ _ drains stepped => drains.step stepped

/-! ## Agreement -/

theorem routesAgree_of_congruent (congruent : cfg.RowsCongruent) : cfg.RoutesAgree := by
  intro row bounded rank rankBounded
  refine ⟨cfg.route (cfg.masterRow, rank), ?_, shardClientForRank_eq rankBounded⟩
  rw [shardClient_inside ⟨bounded, rankBounded⟩,
    route_congruent congruent bounded masterRow_bounded]

/-- With several rows some row lies next to that of the wire master. -/
theorem exists_neighbour (several : cfg.dp ≠ 1) :
    ∃ row < cfg.dp, row = cfg.masterRow + 1 ∨ row + 1 = cfg.masterRow := by
  have bounded : cfg.masterRow < cfg.dp := masterRow_bounded
  have positive := cfg.dpPositive
  by_cases above : cfg.masterRow + 1 < cfg.dp
  · exact ⟨cfg.masterRow + 1, above, .inl rfl⟩
  · exact ⟨cfg.masterRow - 1, by omega, .inr (by omega)⟩

/-- Two neighbouring rows name one shard for a rank only if the shards divide a row. -/
theorem dvd_of_next_route {row rank : Nat} (same : cfg.route (row + 1, rank) = cfg.route (row, rank)) :
    cfg.shards ∣ cfg.tp := by
  simp only [Config.route, Config.externalRouteForFlat, Config.flatChipIndex, Nat.zero_mul,
    Nat.zero_add] at same
  have shifted : (row + 1) * cfg.tp + rank = cfg.tp + (row * cfg.tp + rank) := by
    rw [Nat.succ_mul]
    omega
  have cancelled : cfg.tp + (row * cfg.tp + rank) ≡ 0 + (row * cfg.tp + rank) [MOD cfg.shards] := by
    rw [Nat.zero_add, ← shifted]
    exact same
  exact Nat.modEq_zero_iff_dvd.mp (Nat.ModEq.add_right_cancel' _ cancelled)

/-- Rows that are not congruent name different shards for the same rank. -/
theorem exists_route_differs (incongruent : ¬ cfg.RowsCongruent) :
    ∃ row < cfg.dp, ∀ rank, cfg.route (row, rank) ≠ cfg.route (cfg.masterRow, rank) := by
  obtain ⟨several, indivisible⟩ := not_or.mp incongruent
  obtain ⟨row, bounded, beside⟩ := exists_neighbour several
  refine ⟨row, bounded, fun rank same => indivisible ?_⟩
  rcases beside with above | below
  · rw [above] at same
    exact dvd_of_next_route same
  · rw [← below] at same
    exact dvd_of_next_route same.symm

theorem congruent_of_routesAgree (agree : cfg.RoutesAgree) : cfg.RowsCongruent := by
  by_contra incongruent
  obtain ⟨row, bounded, differs⟩ := exists_route_differs incongruent
  obtain ⟨shard, stored, asked⟩ := agree row bounded 0 cfg.tpPositive
  rw [shardClient_inside ⟨bounded, cfg.tpPositive⟩] at stored
  rw [shardClientForRank_eq cfg.tpPositive] at asked
  exact differs 0 (Option.some.inj (stored.trans asked.symm))

/-- The state after a row stored every rank. -/
theorem putChunkPerChip_whole {row : Nat} (bounded : row < cfg.dp) (key : Key)
    (values : Nat → Value) (state : State Key Value) :
    cfg.putChunkPerChip row key values cfg.tp state =
      some (state.putTargets key values (cfg.targetsIn row)) := by
  have whole : (cfg.targetsIn row).take cfg.tp = cfg.targetsIn row :=
    List.take_of_length_le (by simp [Config.targetsIn])
  simp [Config.putChunkPerChip, rowTargets_inside bounded, whole]

theorem storesAgree_of_congruent (congruent : cfg.RowsCongruent) :
    cfg.StoresAgree Key Value := by
  intro state reached key values row bounded
  have placed : cfg.WellPlaced state := wellPlaced_reached congruent reached
  have asked : cfg.targetsIn row = cfg.targetsIn cfg.masterRow :=
    targetsIn_congruent congruent bounded
  let stored := state.putTargets key values (cfg.targetsIn cfg.masterRow)
  have present : ∀ target ∈ cfg.targetsIn cfg.masterRow,
      stored.directory target.2 (key, target.1) = some (values target.1) := by
    intro target member
    rw [State.putTargets_directory, if_pos ⟨rfl, member⟩]
  have found : ((cfg.targetsIn cfg.masterRow).all fun target =>
      (stored.directory target.2 (key, target.1)).isSome) = true :=
    List.all_eq_true.mpr fun target member => by rw [present target member]; rfl
  refine ⟨stored, ?_, ?_, fun reader readerBounded => ?_,
    (stored.deleteTargets key (cfg.targetsIn cfg.masterRow)).2, ?_, fun shard rank => ?_⟩
  · rw [putChunkPerChip_whole bounded, asked]
  · simp only [Config.existsChunk, rankTargets_eq, Option.map_some, found]
  · have fetched := mapM_defined _ _ _ present
    rw [Config.getChunkPerChip, rowTargets_inside readerBounded,
      targetsIn_congruent congruent readerBounded, Option.map_some, fetched]
    simp [Config.targetsIn, Function.comp_def]
  · rw [Config.deleteChunk, rankTargets_eq, Option.map_some]
    have removed : (stored.deleteTargets key (cfg.targetsIn cfg.masterRow)).1 = true :=
      (State.deleteTargets_found key _ stored (nodup_targetsIn _)).trans found
    rw [← removed]
  · rw [State.deleteTargets_directory _ _ _ (nodup_targetsIn _)]
    split
    · rfl
    · rename_i elsewhere
      rw [State.putTargets_directory, if_neg elsewhere]
      by_contra left
      exact elsewhere ⟨rfl, placed shard key rank left⟩

theorem congruent_of_storesAgree [Inhabited Key] [Inhabited Value]
    (agree : cfg.StoresAgree Key Value) : cfg.RowsCongruent := by
  by_contra incongruent
  obtain ⟨row, bounded, differs⟩ := exists_route_differs incongruent
  obtain ⟨stored, put, found, -⟩ :=
    agree start ⟨[], .start⟩ default (fun _ => default) row bounded
  rw [putChunkPerChip_whole bounded] at put
  rw [← Option.some.inj put, Config.existsChunk, rankTargets_eq, Option.map_some] at found
  have first := List.all_eq_true.mp (Option.some.inj found) (0, cfg.route (cfg.masterRow, 0))
    (mem_targetsIn.mpr ⟨cfg.tpPositive, rfl⟩)
  rw [State.putTargets_directory, if_neg] at first
  · cases first
  · rintro ⟨-, target⟩
    exact differs 0 (mem_targetsIn.mp target).2.symm

/-! ## Flush -/

variable (cfg) in
/-- A client beside its shard is represented after its turn. -/
theorem Config.setDefault_represents {representatives : List (Nat × Nat)} {client : Coord × Nat}
    (own : ∀ entry ∈ representatives, entry.2 = entry.1)
    (routed : client.2 = cfg.route client.1) :
    (∀ entry ∈ cfg.setDefault representatives client, entry.2 = entry.1) ∧
      client.2 ∈ (cfg.setDefault representatives client).map Prod.fst ∧
      ∀ residue ∈ representatives.map Prod.fst,
        residue ∈ (cfg.setDefault representatives client).map Prod.fst := by
  have residue : cfg.flatChipIndex client.1 % cfg.shards = client.2 := routed.symm
  unfold Config.setDefault
  rw [residue]
  dsimp only
  split
  · rename_i present
    obtain ⟨entry, member, same⟩ := List.lookup_isSome_iff.mp present
    exact ⟨own, List.mem_map.mpr ⟨entry, member, (beq_iff_eq.mp same).symm⟩, fun _ kept => kept⟩
  · refine ⟨fun entry member => ?_, by simp, fun other kept => by simp [kept]⟩
    rcases List.mem_append.mp member with earlier | added
    · exact own entry earlier
    · rw [List.mem_singleton.mp added]

theorem foldl_setDefault_represents (clients : List (Coord × Nat))
    (routed : ∀ client ∈ clients, client.2 = cfg.route client.1)
    (representatives : List (Nat × Nat)) (own : ∀ entry ∈ representatives, entry.2 = entry.1) :
    (∀ entry ∈ clients.foldl cfg.setDefault representatives, entry.2 = entry.1) ∧
      (∀ client ∈ clients,
        client.2 ∈ (clients.foldl cfg.setDefault representatives).map Prod.fst) ∧
      ∀ residue ∈ representatives.map Prod.fst,
        residue ∈ (clients.foldl cfg.setDefault representatives).map Prod.fst := by
  induction clients generalizing representatives with
  | nil => exact ⟨own, by simp, fun _ kept => kept⟩
  | cons client rest inductionHypothesis =>
    obtain ⟨ownNext, added, keptNext⟩ :=
      cfg.setDefault_represents own (routed client List.mem_cons_self)
    obtain ⟨ownLast, covered, keptLast⟩ := inductionHypothesis
      (fun other member => routed other (.tail _ member)) _ ownNext
    refine ⟨ownLast, fun other member => ?_, fun residue kept => keptLast residue (keptNext residue kept)⟩
    rcases List.mem_cons.mp member with rfl | later
    · exact keptLast _ added
    · exact covered other later

/-- Every shard of the mesh has a representative. -/
theorem route_represented {coord : Coord} (inside : cfg.Inside coord) :
    cfg.route coord ∈ cfg.representatives.map Prod.snd := by
  have attached : cfg.Attached cfg.openExternal cfg.coordinates := attached_openExternal
  let master := (cfg.flatChipIndex (cfg.wireCoord.getD (0, 0)) % cfg.shards, cfg.openExternal.master)
  have masterOwn : master.2 = master.1 := by
    simp only [master, attached.master, Config.masterFlat, Config.externalRouteForFlat]
    cases cfg.wireCoord with
    | none => simp [Config.flatChipIndex]
    | some coord => rfl
  obtain ⟨own, covered, kept⟩ := foldl_setDefault_represents cfg.openExternal.shardClients
    (fun client member => (attached.members client member).2) [master]
    (fun entry member => List.mem_singleton.mp member ▸ masterOwn)
  have residue : cfg.route coord ∈ cfg.representatives.map Prod.fst := by
    by_cases wire : cfg.wireCoord = some coord
    · apply kept
      simp [master, wire, Config.route, Config.externalRouteForFlat]
    · have client : cfg.openExternal.shardClients.lookup coord = some (cfg.route coord) := by
        rw [attached.routed coord]
        simp [(mem_coordinates coord).mpr inside, wire]
      obtain ⟨before, rest, split, -⟩ := List.lookup_eq_some_iff.mp client
      exact covered (coord, cfg.route coord) (by simp [split])
  obtain ⟨entry, member, same⟩ := List.mem_map.mp residue
  exact List.mem_map.mpr ⟨entry, member, (own entry member).trans same⟩

theorem flushesAll : cfg.FlushesAll Key Value := by
  intro state reached shard
  by_contra waiting
  obtain ⟨undrained, unrepresented⟩ :=
    Bool.and_eq_true_iff.mp (Bool.eq_true_of_not_eq_false waiting)
  obtain ⟨coord, inside, routed⟩ := drainsInside_reached reached shard undrained
  have present : shard ∈ cfg.representatives.map Prod.snd := routed ▸ route_represented inside
  simp [present] at unrepresented

/-- Rows, lookup and deletion address one shard for a rank, and stored chunks are found,
restored and removed, exactly when there is one row or the shards divide a row. The flush
drains every shard in any case.

Proof: clients are attached to the shard of their flat index, so rows agree on a rank when
the product of the row and the width is the same modulo the shards; the row beside that of
the wire master decides. With agreement, runs keep every value in the shard that lookup
asks. -/
theorem shards_agree_iff (cfg : Config) (Key : Type u) (Value : Type v) [DecidableEq Key]
    [Inhabited Key] [Inhabited Value] :
    (cfg.RoutesAgree ∧ cfg.StoresAgree Key Value ∧ cfg.FlushesAll Key Value ↔
        cfg.RowsCongruent) ∧
      (cfg.RoutesAgree ↔ cfg.RowsCongruent) ∧ (cfg.StoresAgree Key Value ↔ cfg.RowsCongruent) ∧
      cfg.FlushesAll Key Value := by
  have routes : cfg.RoutesAgree ↔ cfg.RowsCongruent :=
    ⟨congruent_of_routesAgree, routesAgree_of_congruent⟩
  have stores : cfg.StoresAgree Key Value ↔ cfg.RowsCongruent :=
    ⟨congruent_of_storesAgree, storesAgree_of_congruent⟩
  exact ⟨⟨fun agree => routes.mp agree.1,
    fun congruent => ⟨routes.mpr congruent, stores.mpr congruent, flushesAll⟩⟩,
    routes, stores, flushesAll⟩

/-- Two rows of two chips with three shards, the wire master in the first row. -/
def twoRows : Config where
  dp := 2
  tp := 2
  shards := 3
  stage := (0, 0)
  dpPositive := Nat.two_pos
  tpPositive := Nat.two_pos
  shardsPositive := by decide
  shardsBounded := by decide
  stageRow := by decide
  stageColumn := by decide

/-- The second row and lookup address different shards for the first rank. A chunk stored
from the second row is in no shard that lookup asks: lookup misses, deletion reports an
absent chunk and leaves both values, and the first row cannot restore it. -/
theorem second_row_store_lost :
    twoRows.shardClient (1, 0) = some 2 ∧ twoRows.shardClientForRank 0 = some 0 ∧
    ∃ stored : State Nat Nat, ∃ deleted : State Nat Nat,
      twoRows.putChunkPerChip 1 7 (fun rank => 10 + rank) 2 start = some stored ∧
        twoRows.existsChunk 7 stored = some false ∧
        twoRows.getChunkPerChip 0 7 stored = some none ∧
        twoRows.getChunkPerChip 1 7 stored = some (some [10, 11]) ∧
        twoRows.deleteChunk 7 stored = some (false, deleted) ∧
        deleted.directory 2 (7, 0) = some 10 ∧ deleted.directory 0 (7, 1) = some 11 :=
  ⟨by decide, by decide, _, _, rfl, by decide, by decide, by decide, rfl, by decide, by decide⟩

end Runs

end KvCache.ShardRouting
