import KvCache.Lmcache.RawRunBytes

/-!
# Exact transfers

A place says which part of a chip goes to which part of a memory object, counted in the rows or
blocks of the members. A transfer is exact when the runs of every member pair the bytes that the
copies of its places pair, name no byte of the host twice and stay in the part of the buffer that
belongs to the memory object, and when the bytes they name on the chips are those of the blocks
that were asked for. Then a gather followed by a scatter changes nothing, and no scatter touches
another block.
-/

namespace KvCache.Lmcache.RawPlanners

open Scatter

/-! ## Places -/

/-- A part of a chip and the part of a memory object that it goes to. -/
structure Place where
  shardIndex : Int
  source : Int
  target : Int
  memobjSlot : Int
deriving DecidableEq, Repr

section Places

variable (span : Int)

/-- The copy of a place for a member. -/
def Place.copy (place : Place) (member : Member) : RawCopy :=
  ⟨place.shardIndex, place.source * member.stride, span * member.stride,
    member.regionBase + place.memobjSlot * member.allocBytes + place.target * member.stride⟩

/-- The bytes of a place on its chip. -/
def Place.deviceBytes (place : Place) (member : Member) : List (Int × Int) :=
  (List.range (span * member.stride).toNat).map fun index : Nat =>
    (place.shardIndex, place.source * member.stride + index)

/-- Two places do not meet in a memory object. -/
def Place.Apart (one other : Place) : Prop :=
  one.memobjSlot ≠ other.memobjSlot ∨ one.target + span ≤ other.target ∨
    other.target + span ≤ one.target

/-- A place is within the memory object. -/
def Place.Within (member : Member) (place : Place) : Prop :=
  0 ≤ place.target ∧ (place.target + span) * member.stride ≤ member.allocBytes

variable {span}

theorem Place.copy_deviceBytes (place : Place) (member : Member) :
    (place.copy span member).bytes.map Prod.fst = place.deviceBytes span member := by
  rw [RawCopy.bytes, List.map_map]
  rfl

theorem mem_hostBytes {copy : RawCopy} {byte : Int}
    (member : byte ∈ copy.bytes.map Prod.snd) :
    copy.hostByteOffset ≤ byte ∧ byte < copy.hostByteOffset + copy.numBytes := by
  rw [RawCopy.bytes, List.map_map, List.mem_map] at member
  obtain ⟨index, below, rfl⟩ := member
  rw [List.mem_range] at below
  dsimp only [Function.comp_apply]
  omega

theorem hostBytes_nodup (copy : RawCopy) : (copy.bytes.map Prod.snd).Nodup := by
  rw [RawCopy.bytes, List.map_map]
  refine List.Nodup.map (fun index other same => ?_) List.nodup_range
  dsimp only [Function.comp_apply] at same
  omega

/-- The bytes of the host that belong to a memory object, for a member. -/
def Member.InObject (member : Member) (memobjSlot byte : Int) : Prop :=
  member.regionBase + memobjSlot * member.allocBytes ≤ byte ∧
    byte < member.regionBase + (memobjSlot + 1) * member.allocBytes

/-- A place stays in its memory object. -/
theorem Place.Within.inObject {place : Place} {member : Member}
    (within : place.Within span member) (positive : 0 < member.stride) {byte : Int}
    (named : byte ∈ (place.copy span member).bytes.map Prod.snd) :
    member.InObject place.memobjSlot byte := by
  obtain ⟨low, high⟩ := mem_hostBytes named
  obtain ⟨first, last⟩ := within
  have natural : 0 ≤ place.target * member.stride :=
    Int.mul_nonneg first (Int.le_of_lt positive)
  dsimp only [Place.copy] at low high
  rw [Int.add_mul] at last
  rw [Member.InObject, Int.add_mul, Int.one_mul]
  omega

/-- Places that are apart name no byte of the host twice. -/
theorem Place.Apart.disjoint {one other : Place} {member : Member} (apart : one.Apart span other)
    (positive : 0 < member.stride) (within : one.Within span member)
    (within' : other.Within span member) :
    List.Disjoint ((one.copy span member).bytes.map Prod.snd)
      ((other.copy span member).bytes.map Prod.snd) := by
  intro byte first second
  by_cases same : one.memobjSlot = other.memobjSlot
  · obtain ⟨low, high⟩ := mem_hostBytes first
    obtain ⟨low', high'⟩ := mem_hostBytes second
    dsimp only [Place.copy] at low high low' high'
    rw [same] at low high
    obtain different | before | after := apart
    · exact different same
    · have order := Int.mul_le_mul_of_nonneg_right before (Int.le_of_lt positive)
      rw [Int.add_mul] at order
      omega
    · have order := Int.mul_le_mul_of_nonneg_right after (Int.le_of_lt positive)
      rw [Int.add_mul] at order
      omega
  · have size : 0 ≤ member.allocBytes := by
      obtain ⟨natural, last⟩ := within
      by_contra negative
      obtain ⟨low, high⟩ := mem_hostBytes first
      dsimp only [Place.copy] at low high
      have target := Int.mul_nonneg natural (Int.le_of_lt positive)
      rw [Int.add_mul] at last
      omega
    obtain ⟨low, high⟩ := within.inObject positive first
    obtain ⟨low', high'⟩ := within'.inObject positive second
    rcases Int.lt_or_gt_of_ne same with less | more
    · have order := Int.mul_le_mul_of_nonneg_right (Int.add_one_le_of_lt less) size
      omega
    · have order := Int.mul_le_mul_of_nonneg_right (Int.add_one_le_of_lt more) size
      omega

/-- The bytes that some places name on the chips. -/
def deviceBytes (span : Int) (places : List Place) (member : Member) : List (Int × Int) :=
  places.flatMap fun place => place.deviceBytes span member

/-- The pairs of the copies of some places. -/
def placeBytes (span : Int) (places : List Place) (member : Member) :
    List ((Int × Int) × Int) :=
  places.flatMap fun place => (place.copy span member).bytes

theorem placeBytes_fst (places : List Place) (member : Member) :
    (placeBytes span places member).map Prod.fst = deviceBytes span places member := by
  rw [placeBytes, List.map_flatMap]
  simp only [Place.copy_deviceBytes, deviceBytes]

theorem placeBytes_nodup {places : List Place} {member : Member} (positive : 0 < member.stride)
    (apart : places.Pairwise (Place.Apart span))
    (within : ∀ place ∈ places, place.Within span member) :
    ((placeBytes span places member).map Prod.snd).Nodup := by
  rw [placeBytes, List.map_flatMap, List.nodup_flatMap]
  refine ⟨fun place _ => hostBytes_nodup _, ?_⟩
  refine apart.imp_of_mem fun {one other} first second between => ?_
  exact between.disjoint positive (within one first) (within other second)

end Places

/-! ## Transfers -/

/-- The pairs of all members, each byte of a chip with the index of its member. -/
def planOf (memberRuns : List (List RegionRawByteRun)) : List ((Nat × Int × Int) × Int) :=
  memberRuns.zipIdx.flatMap fun item =>
    (runBytes item.1).map fun pair => ((item.2, pair.1), pair.2)

/-- The regions of the members do not meet, with some number of memory objects in each. -/
def Regions (count : Int) (members : List Member) : Prop :=
  members.Pairwise fun one other =>
    one.regionBase + count * one.allocBytes ≤ other.regionBase ∨
      other.regionBase + count * other.allocBytes ≤ one.regionBase

/-- What the runs of a member are to be. -/
structure MemberExact (span : Int) (places asked : List Place) (member : Member)
    (runs : List RegionRawByteRun) : Prop where
  /-- Merging keeps the pairs of the copies. -/
  merged : runBytes runs = placeBytes span places member
  /-- No byte of the host is named twice. -/
  distinct : ((runBytes runs).map Prod.snd).Nodup
  /-- A place goes to its memory object. -/
  inside : ∀ place ∈ places, ∀ byte ∈ (place.copy span member).bytes.map Prod.snd,
    member.InObject place.memobjSlot byte
  /-- The blocks that were asked for are named, and no others. -/
  device : (runBytes runs).map Prod.fst = deviceBytes span asked member
  /-- No field is cut off. -/
  words : ∀ run ∈ runs, run.Words

/-- What a transfer is to be: the runs of every member are exact, a gather followed by a scatter
leaves the chips as they were, and a scatter leaves all other blocks. -/
structure Exact (span : Int) (members : List Member) (places asked : List Place)
    (memberRuns : List (List RegionRawByteRun)) : Prop where
  each : List.Forall₂ (MemberExact span places asked) members memberRuns
  unchanged : ∀ {β : Type} (device : Nat × Int × Int → β) (host : Int → β),
    scatter (planOf memberRuns) (gather (planOf memberRuns) device host) device = device
  frame : ∀ {β : Type} (device : Nat × Int × Int → β) (host : Int → β) {index : Nat}
    {byte : Int × Int},
    (∀ member, members[index]? = some member → byte ∉ deviceBytes span asked member) →
      scatter (planOf memberRuns) host device (index, byte) = device (index, byte)

section Transfers

variable {span : Int} {members : List Member} {places asked : List Place}

/-- The runs of the places, for every member. -/
def runsOf (span : Int) (members : List Member) (places : List Place) :
    List (List RegionRawByteRun) :=
  members.map fun member => mergedRuns (places.map fun place => place.copy span member)

theorem runsOf_bytes {member : Member}
    (fits : ∀ place ∈ places, (place.copy span member).Fits) :
    runBytes (mergedRuns (places.map fun place => place.copy span member)) =
      placeBytes span places member := by
  rw [mergedRuns_bytes (List.forall_mem_map.mpr fits), List.flatMap_map, placeBytes]

theorem planOf_snd (memberRuns : List (List RegionRawByteRun)) :
    (planOf memberRuns).map Prod.snd =
      memberRuns.flatMap fun runs => (runBytes runs).map Prod.snd := by
  conv_rhs => rw [← List.zipIdx_map_fst 0 memberRuns]
  rw [planOf, List.map_flatMap, List.flatMap_map]
  simp only [List.map_map, Function.comp_def]

theorem mem_planOf {memberRuns : List (List RegionRawByteRun)} {index : Nat} {byte : Int × Int}
    (named : (index, byte) ∈ (planOf memberRuns).map Prod.fst) :
    ∃ runs, memberRuns[index]? = some runs ∧ byte ∈ (runBytes runs).map Prod.fst := by
  obtain ⟨pair, member, same⟩ := List.mem_map.mp named
  obtain ⟨item, listed, inside⟩ := List.mem_flatMap.mp member
  obtain ⟨bytes, there, rfl⟩ := List.mem_map.mp inside
  cases same
  exact ⟨item.1, List.mem_zipIdx_iff_getElem?.mp listed, List.mem_map_of_mem there⟩

/-- Members in regions that do not meet name no byte of the host twice. -/
theorem planOf_distinct {count : Int} (regions : Regions count members)
    (fits : ∀ member ∈ members, ∀ place ∈ places, (place.copy span member).Fits)
    (positive : ∀ member ∈ members, 0 < member.stride ∧ 0 ≤ member.allocBytes)
    (apart : places.Pairwise (Place.Apart span))
    (within : ∀ member ∈ members, ∀ place ∈ places, place.Within span member)
    (slots : ∀ place ∈ places, 0 ≤ place.memobjSlot ∧ place.memobjSlot < count) :
    ((planOf (runsOf span members places)).map Prod.snd).Nodup := by
  rw [planOf_snd, runsOf, List.flatMap_map, List.nodup_flatMap]
  constructor
  · intro member listed
    rw [runsOf_bytes (fits member listed)]
    exact placeBytes_nodup (positive member listed).1 apart (within member listed)
  · have inRegion {member : Member} (listed : member ∈ members) {byte : Int}
        (named : byte ∈ (placeBytes span places member).map Prod.snd) :
        member.regionBase ≤ byte ∧ byte < member.regionBase + count * member.allocBytes := by
      rw [placeBytes, List.map_flatMap, List.mem_flatMap] at named
      obtain ⟨place, found, named⟩ := named
      obtain ⟨natural, below⟩ := slots place found
      obtain ⟨low, high⟩ :=
        (within member listed place found).inObject (positive member listed).1 named
      have first := Int.mul_nonneg natural (positive member listed).2
      have last := Int.mul_le_mul_of_nonneg_right (Int.add_one_le_of_lt below)
        (positive member listed).2
      omega
    refine List.Pairwise.imp_of_mem (fun {one other} first second between => ?_) regions
    rw [Function.onFun, runsOf_bytes (fits one first), runsOf_bytes (fits other second)]
    intro byte here there
    have inOne := inRegion first here
    have inOther := inRegion second there
    omega

/-- The runs of places that fit are exact where the places name the bytes that were asked for. -/
theorem exact_iff {count : Int} (regions : Regions count members)
    (fits : ∀ member ∈ members, ∀ place ∈ places, (place.copy span member).Fits)
    (positive : ∀ member ∈ members, 0 < member.stride ∧ 0 ≤ member.allocBytes)
    (apart : places.Pairwise (Place.Apart span))
    (within : ∀ member ∈ members, ∀ place ∈ places, place.Within span member)
    (slots : ∀ place ∈ places, 0 ≤ place.memobjSlot ∧ place.memobjSlot < count) :
    Exact span members places asked (runsOf span members places) ↔
      ∀ member ∈ members, deviceBytes span places member = deviceBytes span asked member := by
  constructor
  · intro exact_ member listed
    have each := exact_.each
    rw [runsOf, List.forall₂_map_right_iff, List.forall₂_same] at each
    have same := (each member listed).device
    rwa [runsOf_bytes (fits member listed), placeBytes_fst] at same
  · intro same
    have each : ∀ member ∈ members, MemberExact span places asked member
        (mergedRuns (places.map fun place => place.copy span member)) := by
      intro member listed
      have bytes := runsOf_bytes (fits member listed)
      refine ⟨bytes, ?_, fun place found byte named => ?_, ?_, mergedRuns_words _⟩
      · rw [bytes]
        exact placeBytes_nodup (positive member listed).1 apart (within member listed)
      · exact (within member listed place found).inObject (positive member listed).1 named
      · rw [bytes, placeBytes_fst, same member listed]
    have distinct := planOf_distinct regions fits positive apart within slots
    refine ⟨?_, fun device host => scatter_gather distinct device host,
      fun device host index byte other => ?_⟩
    · rw [runsOf, List.forall₂_map_right_iff, List.forall₂_same]
      exact each
    · refine scatter_other host device fun named => ?_
      obtain ⟨runs, there, found⟩ := mem_planOf named
      rw [runsOf, List.getElem?_map] at there
      obtain ⟨member, at_, rfl⟩ := Option.map_eq_some_iff.mp there
      rw [(each member (List.mem_of_getElem? at_)).device] at found
      exact other member at_ found

end Transfers

end KvCache.Lmcache.RawPlanners
