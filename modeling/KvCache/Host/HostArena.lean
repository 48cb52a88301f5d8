import KvCache.Foundation.Run
import KvCache.Protocol.WordSizes

/-!
# The host arena

The server shards of an endpoint share one arena of host memory, cut into a slice for each
worker group. A slice holds the staging window, two completion lines, the ingress
descriptors, the metadata of the pool and the pool itself. The first shard that needs an
arena creates it, from a huge page if its slice has room for the fixed part and the system
has one, else from shared memory; later shards must have the same layout.

The size of the pool is a difference of unsigned numbers. It is taken in another function
than the comparison that it rests on, possibly for another shard.
-/

namespace KvCache.HostArena

open Layout Layout.Word

/-! ## Creating an arena -/

def systemPage : Nat := 4096

def hugePage : Nat := 2 ^ 30

/-- The largest `size_t`. -/
def sizeMax : Nat := 2 ^ 64 - 1

def u64 (number : Nat) : Nat := number % 2 ^ 64

/-- Go on if a check holds. -/
def check {α : Type} (holds : Prop) [Decidable holds] (rest : Option α) : Option α :=
  if holds then rest else none

@[simp]
theorem check_eq_some {α : Type} {holds : Prop} [Decidable holds] {rest : Option α} {value : α} :
    check holds rest = some value ↔ holds ∧ rest = some value := by
  unfold check
  split <;> simp_all

/-- The arena that the shards of an endpoint share. -/
structure Arena where
  hugepage : Bool
  sliceBytes : Nat
  stageAndControlBytes : Nat
  workerGroups : Nat
  mappingBytes : Nat
deriving DecidableEq, Repr

def pageAlignDown (bytes : Nat) : Nat := bytes / systemPage * systemPage

def pageAlignUp (bytes : Nat) : Option Nat :=
  check (bytes ≤ sizeMax - (systemPage - 1))
    (some ((bytes + systemPage - 1) / systemPage * systemPage))

def checkedArenaBytes (sliceBytes workerGroups : Nat) : Option Nat :=
  check (sliceBytes ≤ sizeMax / workerGroups) (some (sliceBytes * workerGroups))

/-- Create an arena; whether the system has a huge page is given. -/
def createHostArena (mapped : Bool) (sliceBytes stageAndControlBytes workerGroups : Nat) :
    Option Arena :=
  if stageAndControlBytes ≤ sliceBytes ∧ mapped = true then
    some ⟨true, sliceBytes, stageAndControlBytes, workerGroups, hugePage⟩
  else
    (pageAlignUp stageAndControlBytes).bind fun sliceBytes =>
      (checkedArenaBytes sliceBytes workerGroups).map fun mappingBytes =>
        ⟨false, sliceBytes, stageAndControlBytes, workerGroups, mappingBytes⟩

/-! ## Reserving a slice -/

/-- What a shard is given: the settings that matter here, its worker group and the mesh it
serves. -/
structure Shard where
  valueSetting : Option Nat
  keySetting : Option Nat
  shards : Option Nat
  staticIntermesh : Bool
  workerGroup : Nat
  hostPoolBytes : Option Nat
deriving DecidableEq, Repr

/-- The number of shards from its setting. -/
def configuredServerWorkerGroups (setting : Option Nat) : Option Nat :=
  check (1 ≤ setting.getD 1 ∧ setting.getD 1 ≤ 8) (some (u32 (setting.getD 1)))

/-- What the constructor of a shard has checked before it reserves memory. -/
structure Limits where
  maxKeys : Nat
  workerGroups : Nat
  offsets : StageOffsets
deriving DecidableEq, Repr

/-- The limits of a shard and the offsets of its fixed part. -/
def Shard.limits (shard : Shard) : Option Limits :=
  (configuredServerWorkerGroups shard.shards).bind fun configured =>
  check (shard.staticIntermesh = true ∨ shard.workerGroup = 0) <|
  check (shard.workerGroup < configured) <|
  (parseMaxValueBytes shard.valueSetting).bind fun maxValueBytes =>
  (parseMaxKeys shard.keySetting).bind fun maxKeys =>
  let offsets := stageOffsets maxValueBytes maxKeys
  check (offsets.stageAndControl ≤ 2 ^ 32 - 1) <|
  some ⟨maxKeys, if shard.staticIntermesh then configured else 1, offsets⟩

/-- Take the arena that is there, if its layout is the same, or create one. -/
def obtainArena (existing : Option Arena) (mapped : Bool) (limits : Limits) : Option Arena :=
  match existing with
  | some arena =>
    check (arena.workerGroups = limits.workerGroups ∧
      arena.stageAndControlBytes = limits.offsets.stageAndControl) (some arena)
  | none =>
    createHostArena mapped (pageAlignDown (hugePage / limits.workerGroups))
      limits.offsets.stageAndControl limits.workerGroups

/-- What a shard keeps of its slice. Without a mapping into the network there is no low
address word, and a slice without units has no pool. -/
structure Stage where
  offsets : StageOffsets
  maxKeys : Nat
  sliceOffset : Nat
  sliceBytes : Nat
  addrLo : Option Nat
  poolReadOff : Nat
  poolUnits : Nat
deriving DecidableEq, Repr

/-- The units of the pool: what is left of the slice, at most the cap. -/
def poolUnitsOf (sliceBytes poolOffset : Nat) (hostPoolBytes : Option Nat) : Nat :=
  let poolBytes := u64 (sliceBytes + 2 ^ 64 - poolOffset)
  let poolBytes := match hostPoolBytes with
    | none => poolBytes
    | some cap => min poolBytes cap
  u32 (poolBytes / maxChunkValueBytes)

/-- Place a shard in its slice of an arena; the address of the arena in the network is
given, if it is mapped. -/
def placeSlice (arena : Arena) (shard : Shard) (limits : Limits) (noc : Option Nat) :
    Option Stage :=
  let sliceOffset := u64 (arena.sliceBytes * shard.workerGroup)
  check (u64 (sliceOffset + arena.sliceBytes) ≤ arena.mappingBytes) <|
  match noc with
  | none => some ⟨limits.offsets, limits.maxKeys, sliceOffset, arena.sliceBytes, none, 0, 0⟩
  | some address =>
    check (address ≤ sizeMax - sliceOffset) <|
    let addrLo := u32 (u64 (address + sliceOffset))
    check (addrLo + arena.sliceBytes ≤ 2 ^ 32) <|
    let poolOffset := limits.offsets.stageAndControl
    let poolUnits := poolUnitsOf arena.sliceBytes poolOffset shard.hostPoolBytes
    let poolReadOff := if 0 < poolUnits then u32 poolOffset else 0
    some ⟨limits.offsets, limits.maxKeys, sliceOffset, arena.sliceBytes, some addrLo, poolReadOff,
      poolUnits⟩

/-! ## The endpoint -/

/-- A shard reserves its slice, or the last shard that held the arena lets go of it. -/
inductive Action where
  | reserve (shard : Shard) (mapped : Bool) (noc : Option Nat)
  | expire
deriving DecidableEq, Repr

/-- The arena of the endpoint, with the slices placed as events. A shard that fails after it
obtained an arena may have shared it already. -/
def step : Option Arena → Action → Option (Option Arena × List Stage)
  | _, .expire => some (none, [])
  | existing, .reserve shard mapped noc =>
    shard.limits.bind fun limits =>
    (obtainArena existing mapped limits).map fun arena =>
      (some arena, (placeSlice arena shard limits noc).toList)

/-! ## Arenas of an endpoint -/

/-- An arena as it is created for some shard. -/
structure Arena.Fits (arena : Arena) : Prop where
  groups : 1 ≤ arena.workerGroups ∧ arena.workerGroups ≤ 8
  paged : systemPage ∣ arena.sliceBytes
  room : arena.stageAndControlBytes ≤ arena.sliceBytes
  word : arena.sliceBytes ≤ 2 ^ 32
  covered : arena.sliceBytes * arena.workerGroups ≤ arena.mappingBytes

/-- The limits of a shard that the constructor accepts. -/
structure Limits.Accepted (limits : Limits) (shard : Shard) : Prop where
  groups : 1 ≤ limits.workerGroups ∧ limits.workerGroups ≤ 8
  own : shard.workerGroup < limits.workerGroups
  keys : limits.maxKeys ≤ maxKeysHardCap
  staged : 64 ∣ limits.offsets.stageBytes
  offsets : limits.offsets = { stageBytes := limits.offsets.stageBytes
                               stageCompletion := limits.offsets.stageBytes
                               getCompletion := limits.offsets.stageBytes + 64
                               getIngress := limits.offsets.stageBytes + 128
                               poolMeta := limits.offsets.stageBytes + 576
                               stageAndControl :=
                                 limits.offsets.stageBytes + 576 + limits.maxKeys * 32 }
  word : limits.offsets.stageAndControl < 2 ^ 32

theorem Shard.limits_accepted {shard : Shard} {limits : Limits}
    (accepted : shard.limits = some limits) : limits.Accepted shard := by
  simp only [Shard.limits, configuredServerWorkerGroups, Option.bind_eq_some_iff, check_eq_some,
    Option.some.injEq] at accepted
  obtain ⟨configured, ⟨range, rfl⟩, served, own, maxValueBytes, value, maxKeys, keys, word, rfl⟩ :=
    accepted
  obtain ⟨-, below⟩ := parseMaxValueBytes_bounds value
  obtain ⟨-, offsets⟩ := @stageOffsets_eq maxValueBytes maxKeys below
  have groups : u32 (shard.shards.getD 1) = shard.shards.getD 1 := u32_of_lt (by omega)
  rw [groups] at own
  rw [offsets] at word
  dsimp only at word
  constructor
  · dsimp only
    rw [groups]
    split
    · exact range
    · exact ⟨Nat.le_refl 1, by decide⟩
  · dsimp only
    rw [groups]
    split
    · exact own
    · next plain =>
      obtain static | first := served
      · exact absurd static plain
      · omega
  · exact parseMaxKeys_le keys
  · rw [offsets]
    exact (by decide : 64 ∣ maxChunkValueBytes).mul_left _
  · rw [offsets]
  · rw [offsets]
    dsimp only
    omega

/-- An arena that is created fits the slices of its shards, and is the one of the limits. -/
theorem createHostArena_fits {mapped : Bool} {arena : Arena} {stageAndControlBytes workerGroups : Nat}
    (groups : 1 ≤ workerGroups ∧ workerGroups ≤ 8) (word : stageAndControlBytes < 2 ^ 32)
    (created : createHostArena mapped (pageAlignDown (hugePage / workerGroups))
      stageAndControlBytes workerGroups = some arena) :
    arena.Fits ∧ arena.workerGroups = workerGroups ∧
      arena.stageAndControlBytes = stageAndControlBytes := by
  have page : systemPage = 4096 := rfl
  have huge : hugePage = 1073741824 := rfl
  unfold createHostArena at created
  split at created
  · next room =>
    have share := Nat.div_mul_le_self hugePage workerGroups
    have down : pageAlignDown (hugePage / workerGroups) ≤ hugePage / workerGroups :=
      Nat.div_mul_le_self _ _
    have most : hugePage / workerGroups ≤ hugePage := Nat.div_le_self _ _
    have covered := Nat.mul_le_mul_right workerGroups down
    obtain rfl := Option.some.inj created
    refine ⟨⟨groups, Nat.dvd_mul_left _ _, room.1, ?_, ?_⟩, rfl, rfl⟩
    · dsimp only
      omega
    · exact covered.trans share
  · simp only [pageAlignUp, checkedArenaBytes, Option.bind_eq_some_iff, Option.map_eq_some_iff,
      check_eq_some, Option.some.injEq] at created
    obtain ⟨-, ⟨-, rfl⟩, -, ⟨-, rfl⟩, rfl⟩ := created
    refine ⟨⟨groups, Nat.dvd_mul_left _ _, ?_, ?_, Nat.le_refl _⟩, rfl, rfl⟩
    · dsimp only [systemPage]
      omega
    · dsimp only [systemPage]
      omega

/-- The arena of an endpoint fits its slices, in every run. -/
theorem reachable_fits {arena : Arena} (reached : Run.Reachable (Run.Takes step) none (some arena)) :
    arena.Fits := by
  obtain ⟨trace, run⟩ := reached
  have fits : ∀ arena', some arena = some arena' → arena'.Fits := by
    apply run.invariant fun existing => ∀ arena', existing = some arena' → arena'.Fits
    · exact fun _ absent => nomatch absent
    · rintro existing events after known ⟨action, taken⟩
      cases action with
      | expire =>
        obtain ⟨rfl, -⟩ := Prod.mk.inj (Option.some.inj taken)
        exact fun _ absent => nomatch absent
      | reserve shard mapped noc =>
        obtain ⟨limits, accepted, obtained⟩ := Option.bind_eq_some_iff.mp taken
        obtain ⟨chosen, taking, same⟩ := Option.map_eq_some_iff.mp obtained
        obtain ⟨rfl, -⟩ := Prod.mk.inj same
        intro arena' equal
        obtain rfl := Option.some.inj equal
        cases existing with
        | some there =>
          obtain ⟨-, kept⟩ := check_eq_some.mp taking
          exact known _ kept
        | none =>
          have limited := Shard.limits_accepted accepted
          exact (createHostArena_fits limited.groups limited.word taking).1
  exact fits arena rfl

/-! ## The layout of a slice -/

/-- A part of a slice: items of one size from an offset on, each with an alignment. -/
structure Region where
  start : Nat
  size : Nat
  count : Nat
  align : Nat
deriving DecidableEq, Repr

/-- The end of a region. -/
def Region.finish (region : Region) : Nat := region.start + region.count * region.size

/-- The parts of a slice. -/
def Stage.regions (stage : Stage) : List Region :=
  [⟨0, stage.offsets.stageBytes, 1, 64⟩,
    ⟨stage.offsets.stageCompletion, promoteHostCompletionBytes, 1, 64⟩,
    ⟨stage.offsets.getCompletion, getHostCompletionBytes, 1, 64⟩,
    ⟨stage.offsets.getIngress, 224, 2, 32⟩,
    ⟨stage.offsets.poolMeta, hostPoolMetaBytes, stage.maxKeys, 32⟩] ++
    if 0 < stage.poolUnits then [⟨stage.poolReadOff, maxChunkValueBytes, stage.poolUnits, 32⟩]
    else []

/-- The descriptors of GET ingress fill their bytes. -/
theorem ingress_bytes : 2 * 224 = getIngressHostBytes := rfl

/-- What the placement of a slice leaves. -/
structure Placed (arena : Arena) (shard : Shard) (limits : Limits) (stage : Stage) : Prop where
  offset : stage.sliceOffset = arena.sliceBytes * shard.workerGroup
  bytes : stage.sliceBytes = arena.sliceBytes
  mapped : stage.sliceOffset + stage.sliceBytes ≤ arena.mappingBytes
  offsets : stage.offsets = limits.offsets
  keys : stage.maxKeys = limits.maxKeys
  low : ∀ addrLo, stage.addrLo = some addrLo → addrLo + stage.sliceBytes ≤ 2 ^ 32
  pool : 0 < stage.poolUnits → stage.poolReadOff = limits.offsets.stageAndControl
  units : stage.poolUnits = 0 ∨ stage.poolUnits =
    (match shard.hostPoolBytes with
      | none => arena.sliceBytes - limits.offsets.stageAndControl
      | some cap => min (arena.sliceBytes - limits.offsets.stageAndControl) cap) /
        maxChunkValueBytes

/-- The units of the pool are those of the difference, which does not wrap. -/
theorem poolUnitsOf_eq {sliceBytes poolOffset : Nat} (hostPoolBytes : Option Nat)
    (room : poolOffset ≤ sliceBytes) (word : sliceBytes ≤ 2 ^ 32) :
    poolUnitsOf sliceBytes poolOffset hostPoolBytes =
      (match hostPoolBytes with
        | none => sliceBytes - poolOffset
        | some cap => min (sliceBytes - poolOffset) cap) / maxChunkValueBytes := by
  have difference : u64 (sliceBytes + 2 ^ 64 - poolOffset) = sliceBytes - poolOffset := by
    unfold u64
    omega
  have fits : ∀ bytes ≤ sliceBytes - poolOffset, u32 (bytes / maxChunkValueBytes) =
      bytes / maxChunkValueBytes := by
    intro bytes less
    apply u32_of_lt
    unfold maxChunkValueBytes
    omega
  unfold poolUnitsOf
  rw [difference]
  cases hostPoolBytes with
  | none => exact fits _ (Nat.le_refl _)
  | some cap => exact fits _ (Nat.min_le_left _ _)

theorem placeSlice_placed {arena : Arena} {shard : Shard} {limits : Limits} {stage : Stage}
    {noc : Option Nat} (fits : arena.Fits) (accepted : limits.Accepted shard)
    (groups : arena.workerGroups = limits.workerGroups)
    (control : arena.stageAndControlBytes = limits.offsets.stageAndControl)
    (placed : placeSlice arena shard limits noc = some stage) :
    Placed arena shard limits stage := by
  have own := accepted.own
  have word := fits.word
  have few := fits.groups.2
  have below : arena.sliceBytes * shard.workerGroup + arena.sliceBytes ≤
      arena.sliceBytes * arena.workerGroups := by
    rw [← Nat.mul_succ]
    exact Nat.mul_le_mul_left _ (by omega)
  have whole : arena.sliceBytes * arena.workerGroups ≤ 2 ^ 32 * 8 := Nat.mul_le_mul word few
  have start : u64 (arena.sliceBytes * shard.workerGroup) =
      arena.sliceBytes * shard.workerGroup := Nat.mod_eq_of_lt (by omega)
  have covered := below.trans fits.covered
  have room := control ▸ fits.room
  simp only [placeSlice, start, check_eq_some] at placed
  obtain ⟨-, placed⟩ := placed
  cases noc with
  | none =>
    obtain rfl := Option.some.inj placed
    exact ⟨rfl, rfl, covered, rfl, rfl, nofun, fun some => absurd some (Nat.lt_irrefl 0),
      .inl rfl⟩
  | some address =>
    simp only [check_eq_some, Option.some.injEq] at placed
    obtain ⟨-, low, rfl⟩ := placed
    refine ⟨rfl, rfl, covered, rfl, rfl, ?_, ?_, .inr (poolUnitsOf_eq _ room word)⟩
    · intro addrLo same
      exact Option.some.inj same ▸ low
    · intro some
      exact (if_pos some).trans (u32_of_lt accepted.word)

/-- The pool ends in its slice. -/
theorem Placed.pool_fits {arena : Arena} {shard : Shard} {limits : Limits} {stage : Stage}
    (laid : Placed arena shard limits stage)
    (room : limits.offsets.stageAndControl ≤ arena.sliceBytes) :
    limits.offsets.stageAndControl + stage.poolUnits * maxChunkValueBytes ≤ arena.sliceBytes := by
  obtain none | some := laid.units
  · rw [none, Nat.zero_mul]
    exact room
  · have left : stage.poolUnits * maxChunkValueBytes ≤
        arena.sliceBytes - limits.offsets.stageAndControl := by
      rw [some]
      refine (Nat.div_mul_le_self _ _).trans ?_
      cases shard.hostPoolBytes with
      | none => exact Nat.le_refl _
      | some cap => exact Nat.min_le_left _ _
    omega

/-- The parts of a slice by their offsets. -/
theorem Placed.regions_eq {arena : Arena} {shard : Shard} {limits : Limits} {stage : Stage}
    (laid : Placed arena shard limits stage) (accepted : limits.Accepted shard) :
    stage.regions =
      [⟨0, limits.offsets.stageBytes, 1, 64⟩, ⟨limits.offsets.stageBytes, 64, 1, 64⟩,
        ⟨limits.offsets.stageBytes + 64, 64, 1, 64⟩, ⟨limits.offsets.stageBytes + 128, 224, 2, 32⟩,
        ⟨limits.offsets.stageBytes + 576, 32, limits.maxKeys, 32⟩] ++
      if 0 < stage.poolUnits then
        [⟨limits.offsets.stageBytes + 576 + limits.maxKeys * 32, maxChunkValueBytes,
          stage.poolUnits, 32⟩]
      else [] := by
  have offsets := accepted.offsets
  generalize limits.offsets.stageBytes = stageBytes at offsets ⊢
  unfold Stage.regions
  rw [laid.offsets, laid.keys, offsets]
  congr 1
  split
  · next some => rw [laid.pool some, offsets]
  · rfl

/-- Every part ends in the slice and its items are aligned. -/
theorem Placed.region_fits {arena : Arena} {shard : Shard} {limits : Limits} {stage : Stage}
    (laid : Placed arena shard limits stage) (accepted : limits.Accepted shard)
    (fits : arena.Fits) (room : limits.offsets.stageAndControl ≤ arena.sliceBytes)
    {region : Region} (member : region ∈ stage.regions) :
    region.finish ≤ arena.sliceBytes ∧ ∀ item < region.count,
      region.align ∣ stage.sliceOffset + region.start + item * region.size := by
  have pool := laid.pool_fits room
  have control : limits.offsets.stageAndControl =
      limits.offsets.stageBytes + 576 + limits.maxKeys * 32 := by
    conv_lhs => rw [accepted.offsets]
  have page : 64 ∣ stage.sliceOffset := by
    rw [laid.offset]
    exact ((by decide : 64 ∣ systemPage).trans fits.paged).mul_right _
  have staged := accepted.staged
  have unit : maxChunkValueBytes = 4288 := rfl
  have listed : region ∈ [(⟨0, limits.offsets.stageBytes, 1, 64⟩ : Region),
      ⟨limits.offsets.stageBytes, 64, 1, 64⟩, ⟨limits.offsets.stageBytes + 64, 64, 1, 64⟩,
      ⟨limits.offsets.stageBytes + 128, 224, 2, 32⟩,
      ⟨limits.offsets.stageBytes + 576, 32, limits.maxKeys, 32⟩,
      ⟨limits.offsets.stageBytes + 576 + limits.maxKeys * 32, maxChunkValueBytes,
        stage.poolUnits, 32⟩] := by
    rw [laid.regions_eq accepted] at member
    split at member <;> simp at member ⊢ <;> tauto
  generalize limits.offsets.stageBytes = stageBytes at *
  simp only [List.mem_cons, List.not_mem_nil, or_false] at listed
  obtain rfl | rfl | rfl | rfl | rfl | rfl := listed
  all_goals
    simp only [Region.finish]
    refine ⟨by omega, fun item less => ?_⟩
    have whole : 32 ∣ item * maxChunkValueBytes := (by decide : 32 ∣ maxChunkValueBytes).mul_left _
    have first : item < 1 → item * stageBytes = 0 := fun none => by
      rw [Nat.lt_one_iff.mp none, Nat.zero_mul]
    omega

/-- The parts follow one another. -/
theorem Placed.regions_apart {arena : Arena} {shard : Shard} {limits : Limits} {stage : Stage}
    (laid : Placed arena shard limits stage) (accepted : limits.Accepted shard) :
    stage.regions.Pairwise fun region later => region.finish ≤ later.start := by
  rw [laid.regions_eq accepted]
  split
  · simp only [List.cons_append, List.nil_append, List.pairwise_cons, List.mem_cons,
      List.not_mem_nil, or_false, forall_eq_or_imp, forall_eq, Region.finish, List.Pairwise.nil,
      false_implies, implies_true, and_true]
    omega
  · simp only [List.append_nil, List.pairwise_cons, List.mem_cons,
      List.not_mem_nil, or_false, forall_eq_or_imp, forall_eq, Region.finish, List.Pairwise.nil,
      false_implies, implies_true, and_true]
    omega

/-- The layout of a slice, for every arena that the shards of an endpoint share in any run and
every shard that is placed in it: the parts are in range, aligned and apart; the slices of two
groups are apart; the pool takes the difference that is left; and no offset in the slice wraps
the low address word.

Proof: an arena was created for a shard with the same fixed part, and is at least as long
rounded to pages; the parts follow one another up to the fixed part, and the pool fits in what
is left. -/
theorem arena_layout {arena : Arena}
    (reached : Run.Reachable (Run.Takes step) none (some arena)) {shard : Shard} {limits : Limits}
    {mapped : Bool} {noc : Option Nat} {stage : Stage} (accepted : shard.limits = some limits)
    (obtained : obtainArena (some arena) mapped limits = some arena)
    (placed : placeSlice arena shard limits noc = some stage) :
    stage.sliceOffset + stage.sliceBytes ≤ arena.mappingBytes ∧
      limits.offsets.stageAndControl ≤ stage.sliceBytes ∧
      (stage.poolUnits = 0 ∨ stage.poolUnits =
        (match shard.hostPoolBytes with
          | none => stage.sliceBytes - limits.offsets.stageAndControl
          | some cap => min (stage.sliceBytes - limits.offsets.stageAndControl) cap) /
            maxChunkValueBytes) ∧
      (∀ region ∈ stage.regions, region.finish ≤ stage.sliceBytes ∧
        ∀ item < region.count,
          region.align ∣ stage.sliceOffset + region.start + item * region.size) ∧
      stage.regions.Pairwise (fun region later => region.finish ≤ later.start) ∧
      (0 < stage.poolUnits → stage.poolReadOff ≠ 0) ∧
      (∀ addrLo, stage.addrLo = some addrLo → ∀ offset < stage.sliceBytes,
        addrLo + offset < 2 ^ 32) ∧
      ∀ other otherLimits otherMapped otherNoc otherStage, Shard.limits other = some otherLimits →
        obtainArena (some arena) otherMapped otherLimits = some arena →
        placeSlice arena other otherLimits otherNoc = some otherStage →
        other.workerGroup ≠ shard.workerGroup →
        otherStage.sliceOffset + otherStage.sliceBytes ≤ stage.sliceOffset ∨
          stage.sliceOffset + stage.sliceBytes ≤ otherStage.sliceOffset := by
  have fits := reachable_fits reached
  have limited := Shard.limits_accepted accepted
  obtain ⟨⟨groups, control⟩, -⟩ := check_eq_some.mp obtained
  have laid := placeSlice_placed fits limited groups control placed
  have room : limits.offsets.stageAndControl ≤ stage.sliceBytes := by
    rw [laid.bytes, ← control]
    exact fits.room
  refine ⟨laid.mapped, room, ?_, ?_, ?_, ?_, ?_, ?_⟩
  · rw [laid.bytes]
    exact laid.units
  · intro region member
    rw [laid.bytes] at room ⊢
    exact laid.region_fits limited fits room member
  · exact laid.regions_apart limited
  · intro some
    rw [laid.pool some, limited.offsets]
    exact Nat.ne_of_gt (Nat.add_pos_left (Nat.add_pos_right _ (by decide)) _)
  · intro addrLo known offset inside
    have low := laid.low addrLo known
    omega
  · intro other otherLimits otherMapped otherNoc otherStage otherAccepted otherObtained otherPlaced
      different
    obtain ⟨⟨otherGroups, otherControl⟩, -⟩ := check_eq_some.mp otherObtained
    have otherLaid := placeSlice_placed fits (Shard.limits_accepted otherAccepted) otherGroups
      otherControl otherPlaced
    rw [laid.offset, laid.bytes, otherLaid.offset, otherLaid.bytes, ← Nat.mul_succ, ← Nat.mul_succ]
    obtain before | after := Nat.lt_or_gt_of_ne different
    · exact .inl (Nat.mul_le_mul_left _ before)
    · exact .inr (Nat.mul_le_mul_left _ after)

/-- A shard without settings, on an endpoint of its own. -/
def plainShard : Shard := ⟨none, none, none, false, 0, none⟩

/-- Its limits: a staging window of 15651 chunks and 1024 slots. -/
def plainLimits : Limits :=
  ⟨1024, 1, ⟨67111488, 67111488, 67111552, 67111616, 67112064, 67144832⟩⟩

theorem plainShard_limits : plainShard.limits = some plainLimits := by decide

/-- The arena of a huge page that the first such shard creates. -/
def plainArena : Arena := ⟨true, 1073741824, 67144832, 1, 1073741824⟩

theorem plainArena_reached : Run.Reachable (Run.Takes step) none (some plainArena) := by
  have taken : step none (.reserve plainShard true none) = some (some plainArena,
      [⟨plainLimits.offsets, 1024, 0, 1073741824, none, 0, 0⟩]) := by decide
  exact ⟨_, .next .start ⟨_, taken⟩⟩

/-- A slice of a gigabyte with its pool, mapped into the network at 2^35. -/
def plainStage : Stage := ⟨plainLimits.offsets, 1024, 0, 1073741824, some 0, 67144832, 234747⟩

/-- The shard that created the arena is placed in it. -/
theorem arena_layout_plain : plainShard.limits = some plainLimits ∧
    placeSlice plainArena plainShard plainLimits (some (2 ^ 35)) = some plainStage ∧
    plainStage.regions.Pairwise (fun region later => region.finish ≤ later.start) ∧
    plainStage.poolReadOff ≠ 0 := by
  have placed : placeSlice plainArena plainShard plainLimits (some (2 ^ 35)) = some plainStage := by
    decide
  have obtained : obtainArena (some plainArena) true plainLimits = some plainArena := by decide
  obtain ⟨-, -, -, -, apart, past, -, -⟩ :=
    arena_layout plainArena_reached plainShard_limits obtained placed
  exact ⟨plainShard_limits, placed, apart, past (by decide)⟩

/-- With the pool capped at zero bytes the slice has no pool and the offset of the pool stays
zero. -/
theorem capped_pool_offset :
    Run.Reachable (Run.Takes step) none (some plainArena) ∧
    ({ plainShard with hostPoolBytes := some 0 } : Shard).limits = some plainLimits ∧
    placeSlice plainArena { plainShard with hostPoolBytes := some 0 } plainLimits
        (some (2 ^ 35)) =
      some { plainStage with poolReadOff := 0, poolUnits := 0 } := by
  exact ⟨plainArena_reached, by decide, by decide +kernel⟩

end KvCache.HostArena
