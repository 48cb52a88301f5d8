import KvCache.Foundation.Guarded
import KvCache.Lmcache.RawPlanners

/-!
# From places to runs

Every planner does the same two things: it finds the places of the blocks, chunk by chunk, and
it appends a copy of each place to the runs of each member. The finding does not look at the
runs, so it can be done first; what is appended is then the merged copies of all places.
-/

namespace KvCache.Lmcache.RawPlanners

open Guarded

/-! ## Appending -/

/-- The runs of some copies, merged where they continue one another. -/
def mergedRuns (copies : List RawCopy) : List RegionRawByteRun :=
  (copies.map RawCopy.run).foldl pushRun []

section Appending

variable {π : Type} (members : List Member) (met : π → Member → Prop)
  [∀ place member, Decidable (met place member)] (copy : π → Member → RawCopy)

/-- Append the copies of a place where all of them are met. -/
def appendPlace (memberRuns : List (List RegionRawByteRun)) (place : π) :
    Option (List (List RegionRawByteRun)) :=
  appendMembers members (fun member runs =>
    if met place member then some (pushRun runs (copy place member).run) else none) memberRuns

theorem appendPlace_eq (runsOf : Member → List RegionRawByteRun) (place : π) :
    appendPlace members met copy (members.map runsOf) place =
      if ∀ member ∈ members, met place member then
        some (members.map fun member => pushRun (runsOf member) (copy place member).run)
      else none := by
  have pairs : members.zip (members.map runsOf) = members.map fun member =>
      (member, runsOf member) := by
    rw [← List.map_prod_left_eq_zip]
  rw [appendPlace, appendMembers, pairs, ← mapM_guarded (met place)]
  induction members with
  | nil => rfl
  | cons member members inductionHypothesis =>
    rw [List.map_cons, List.mapM_cons, List.mapM_cons,
      inductionHypothesis (by rw [← List.map_prod_left_eq_zip])]

theorem appendPlaces_eq (places : List π) (runsOf : Member → List RegionRawByteRun) :
    places.foldlM (appendPlace members met copy) (members.map runsOf) =
      if ∀ place ∈ places, ∀ member ∈ members, met place member then
        some (members.map fun member =>
          (places.map fun place => (copy place member).run).foldl pushRun (runsOf member))
      else none := by
  induction places generalizing runsOf with
  | nil => exact (if_pos (by simp)).symm
  | cons place places inductionHypothesis =>
    rw [List.foldlM_cons, appendPlace_eq]
    by_cases first : ∀ member ∈ members, met place member
    · rw [if_pos first, Option.bind_eq_bind, Option.bind_some, inductionHypothesis]
      by_cases rest : ∀ place ∈ places, ∀ member ∈ members, met place member
      · rw [if_pos rest, if_pos (List.forall_mem_cons.mpr ⟨first, rest⟩)]
        rfl
      · rw [if_neg rest, if_neg fun all => rest (List.forall_mem_cons.mp all).2]
    · rw [if_neg first, if_neg fun all => first (List.forall_mem_cons.mp all).1]
      rfl

variable {ι : Type} (placesOf : ι → Option (List π))

/-- A planner finds the places of all items, and merges their copies for each member. -/
theorem plan_eq (items : List ι) :
    items.foldlM (fun memberRuns item =>
        (placesOf item).bind fun places =>
          places.foldlM (appendPlace members met copy) memberRuns)
      (members.map fun _ => []) =
    (items.mapM placesOf).bind fun found =>
      if ∀ place ∈ found.flatten, ∀ member ∈ members, met place member then
        some (members.map fun member =>
          mergedRuns (found.flatten.map fun place => copy place member))
      else none := by
  have swapped (memberRuns : List (List RegionRawByteRun)) (item : ι) :
      ((placesOf item).bind fun places =>
        places.foldlM (appendPlace members met copy) memberRuns) =
      (placesOf item).bind ((fun memberRuns places =>
        places.foldlM (appendPlace members met copy) memberRuns) memberRuns) := rfl
  simp only [swapped]
  rw [foldlM_made]
  congr 1
  funext found
  rw [foldlM_flatten, appendPlaces_eq]
  simp only [mergedRuns, List.map_map, Function.comp_def]

/-- The places that are found for all items. -/
def allPlaces (items : List ι) : List π := items.flatMap fun item => (placesOf item).getD []

/-- The runs that a planner returns. -/
theorem plan_eq_some {items : List ι} {memberRuns : List (List RegionRawByteRun)} :
    items.foldlM (fun memberRuns item =>
        (placesOf item).bind fun places =>
          places.foldlM (appendPlace members met copy) memberRuns)
      (members.map fun _ => []) = some memberRuns ↔
    (∀ item ∈ items, (placesOf item).isSome) ∧
      (∀ place ∈ allPlaces placesOf items, ∀ member ∈ members, met place member) ∧
      memberRuns = members.map fun member =>
        mergedRuns ((allPlaces placesOf items).map fun place => copy place member) := by
  have found_eq {found : List (List π)} (all : items.mapM placesOf = some found) :
      found.flatten = allPlaces placesOf items := by
    have only : ∀ item ∈ items, ∀ places, placesOf item = some places →
        id places = (placesOf item).getD [] := by
      intro item _ places one
      rw [one, Option.getD_some, id_eq]
    rw [← List.map_id found, mapM_eq_map only all, allPlaces, List.flatMap]
  rw [plan_eq, Option.bind_eq_some_iff]
  constructor
  · rintro ⟨found, all, emitted⟩
    rw [found_eq all] at emitted
    split at emitted
    · next fits =>
      cases emitted
      exact ⟨mapM_isSome.mp (all ▸ rfl), fits, rfl⟩
    · cases emitted
  · rintro ⟨every, fits, rfl⟩
    obtain ⟨found, all⟩ := Option.isSome_iff_exists.mp (mapM_isSome.mpr every)
    refine ⟨found, all, ?_⟩
    rw [found_eq all]
    exact if_pos fits

end Appending

/-! ## The places of a chunk -/

section Places

variable (transfer : Transfer)

/-- The copy of some rows for a member. -/
def rowCopy (place : RowPlace) (member : Member) : RawCopy :=
  ⟨place.shardIndex, place.srcRow * member.stride, transfer.blockSize * member.stride,
    member.regionBase + place.memobjSlot * member.allocBytes + place.dstRow * member.stride⟩

/-- The places of the rows of a chunk. -/
def regionPlaces (mesh : RegionMesh) (targetRows : Int) (chunk : Chunk) :
    Option (List RowPlace) :=
  if chunk.start < 0 ∨ chunk.stop ≤ chunk.start ∨ transfer.numSlots < chunk.stop ∨
      targetRows < chunk.stop - chunk.start then none
  else if transfer.slot chunk.start < 0 ∨ transfer.slot chunk.start % transfer.blockSize ≠ 0 then
    none
  else (steps targetRows transfer.blockSize).mapM (regionPlace transfer mesh chunk)

theorem regionChunk_eq (memberWidths : List Int) (mesh : RegionMesh) (targetRows : Int)
    (memberRuns : List (List RegionRawByteRun)) (chunk : Chunk) :
    regionChunk transfer memberWidths mesh targetRows memberRuns chunk =
      (regionPlaces transfer mesh targetRows chunk).bind fun places =>
        places.foldlM (appendPlace (transfer.members memberWidths)
          (fun place member => (rowCopy transfer place member).Fits) (rowCopy transfer))
          memberRuns := by
  rw [regionChunk, regionPlaces]
  split
  · rfl
  · split
    · rfl
    · exact foldlM_made _ (appendPlace (transfer.members memberWidths)
        (fun place member => (rowCopy transfer place member).Fits) (rowCopy transfer)) _ _

/-- The places of a chunk's blocks, each with all its ranks. -/
def tpPlaces (shape : TpShape) (chunk : Chunk) : Option (List TpPlace) :=
  if chunk.start < 0 ∨ chunk.stop < chunk.start ∨ transfer.numSlots < chunk.stop then none
  else if chunk.stop - chunk.start = 0 then some []
  else if transfer.slot chunk.start < 0 ∨ transfer.slot chunk.start % transfer.blockSize ≠ 0 then
    none
  else do
    let blocks ← collectBlocks transfer chunk
    if ∃ member ∈ tpMembers transfer shape,
        member.allocBytes / shape.blockBytes < blocks.length then none
    else
      (blocks.zipIdx.mapM fun block : Int × Nat =>
        (List.range shape.tpSize.toNat).mapM fun tpRank : Nat =>
          tpPlace shape chunk block.1 block.2 tpRank).map List.flatten

/-- A copy fits, and it is not empty. -/
def RawCopy.FitsExplicit (copy : RawCopy) : Prop := copy.Fits ∧ 0 < copy.numBytes

instance (copy : RawCopy) : Decidable copy.FitsExplicit := by
  unfold RawCopy.FitsExplicit
  infer_instance

theorem tpChunk_eq (shape : TpShape) (memberRuns : List (List RegionRawByteRun))
    (chunk : Chunk) :
    tpChunk transfer shape memberRuns chunk =
      (tpPlaces transfer shape chunk).bind fun places =>
        places.foldlM (appendPlace (tpMembers transfer shape)
          (fun place member => (tpCopy shape place member).FitsExplicit) (tpCopy shape))
          memberRuns := by
  rw [tpChunk, tpPlaces]
  dsimp only
  split
  · rfl
  · split
    · rfl
    · split
      · rfl
      · cases collectBlocks transfer chunk with
        | none => rfl
        | some blocks =>
          simp only [Option.bind_eq_bind, Option.bind_some]
          split
          · rfl
          · rw [Option.bind_map]
            have ranks (memberRuns : List (List RegionRawByteRun)) (block : Int × Nat) :
                tpBlock transfer shape chunk memberRuns block.1 block.2 =
                  ((List.range shape.tpSize.toNat).mapM fun tpRank : Nat =>
                    tpPlace shape chunk block.1 block.2 tpRank).bind
                      ((fun memberRuns places =>
                        places.foldlM (appendPlace (tpMembers transfer shape)
                          (fun place member => (tpCopy shape place member).FitsExplicit)
                          (tpCopy shape)) memberRuns) memberRuns) :=
              foldlM_made _ (appendPlace (tpMembers transfer shape)
                (fun place member => (tpCopy shape place member).FitsExplicit) (tpCopy shape)) _ _
            simp only [ranks]
            rw [foldlM_made]
            congr 1
            funext found
            exact foldlM_flatten _ _ _

/-- The places of the blocks of a chunk. -/
def cyclicPlaces (shape : CyclicShape) (targetBlocks : Int) (chunk : Chunk × Int) :
    Option (List CyclicPlace) :=
  let (chunk, sourceStart) := chunk
  if chunk.start < 0 ∨ chunk.start % transfer.blockSize ≠ 0 ∨ chunk.stop ≤ chunk.start ∨
      transfer.numSlots < chunk.stop then none
  else if sourceStart < 0 ∨ sourceStart % transfer.blockSize ≠ 0 then none
  else
    let logicalBlocks := (chunk.stop - chunk.start + transfer.blockSize - 1) / transfer.blockSize
    if targetBlocks < sourceStart / transfer.blockSize + logicalBlocks then none
    else if transfer.slot chunk.start < 0 ∨
        transfer.slot chunk.start % transfer.blockSize ≠ 0 then none
    else (List.range logicalBlocks.toNat).mapM (cyclicPlace transfer shape chunk sourceStart)

theorem cyclicChunk_eq (memberWidths : List Int) (shape : CyclicShape) (targetBlocks : Int)
    (memberRuns : List (List RegionRawByteRun)) (chunk : Chunk × Int) :
    cyclicChunk transfer memberWidths shape targetBlocks memberRuns chunk =
      (cyclicPlaces transfer shape targetBlocks chunk).bind fun places =>
        places.foldlM (appendPlace (cyclicMembers transfer memberWidths)
          (fun place member => (cyclicCopy place member).FitsExplicit) cyclicCopy) memberRuns := by
  obtain ⟨chunk, sourceStart⟩ := chunk
  rw [cyclicChunk, cyclicPlaces]
  dsimp only
  split
  · rfl
  · split
    · rfl
    · split
      · rfl
      · split
        · rfl
        · exact foldlM_made _ (appendPlace (cyclicMembers transfer memberWidths)
            (fun place member => (cyclicCopy place member).FitsExplicit) cyclicCopy) _ _

end Places

end KvCache.Lmcache.RawPlanners
