import KvCache.Foundation.Scatter
import KvCache.Lmcache.RawPlaces
import Mathlib.Data.List.Nodup
import Mathlib.Tactic.Ring

/-!
# The bytes of runs

A run pairs bytes of a chip with bytes of the host buffer, one behind the other, and so does a
copy. Merging changes the runs and not the pairs. Where the places of a plan are apart in the
memory objects, no byte of the host is named twice, so what is gathered can be scattered back.
-/

namespace KvCache.Lmcache.RawPlanners

open Scatter

/-! ## Pairs of bytes -/

/-- The pairs of a copy: a chip and a byte of it, and a byte of the host. -/
def RawCopy.bytes (copy : RawCopy) : List ((Int × Int) × Int) :=
  (List.range copy.numBytes.toNat).map fun index : Nat =>
    ((copy.shardIndex, copy.deviceByteOffset + index), copy.hostByteOffset + index)

def RegionRawByteRun.bytes (run : RegionRawByteRun) : List ((Int × Int) × Int) :=
  (List.range run.numBytes).map fun index : Nat =>
    (((run.shardIndex : Int), (run.deviceByteOffset + index : Int)),
      (run.hostByteOffset + index : Int))

/-- The pairs of some runs. -/
def runBytes (runs : List RegionRawByteRun) : List ((Int × Int) × Int) := runs.flatMap (·.bytes)

theorem toU32_of_fits {value : Int} (fits : FitsU32 value) : (toU32 value : Int) = value := by
  obtain ⟨natural, small⟩ := fits
  rw [toU32]
  omega

theorem toU64_of_fits {value : Int} (fits : FitsHostOffset value) :
    (toU64 value : Int) = value := by
  obtain ⟨natural, small⟩ := fits
  rw [toU64]
  omega

/-- A copy that fits becomes a run with the same pairs. -/
theorem RawCopy.run_bytes {copy : RawCopy} (fits : copy.Fits) : copy.run.bytes = copy.bytes := by
  obtain ⟨shard, device, count, host⟩ := fits
  have size : copy.run.numBytes = copy.numBytes.toNat := by
    have same := toU32_of_fits count
    change toU32 copy.numBytes = copy.numBytes.toNat
    omega
  rw [RegionRawByteRun.bytes, RawCopy.bytes, size]
  refine List.map_congr_left fun index _ => ?_
  change (((toU32 copy.shardIndex : Int), (toU32 copy.deviceByteOffset + index : Int)),
    (toU64 copy.hostByteOffset + index : Int)) = _
  rw [toU32_of_fits shard, toU32_of_fits device, toU64_of_fits host]

/-- Two runs of which one continues the other have the pairs of the merged run. -/
theorem Continues.bytes {prev run : RegionRawByteRun} (continued : Continues prev run) :
    ({ prev with numBytes := (prev.numBytes + run.numBytes) % 2 ^ 32 } : RegionRawByteRun).bytes =
      prev.bytes ++ run.bytes := by
  obtain ⟨shard, device, host, short⟩ := continued
  have whole : (prev.numBytes + run.numBytes) % 2 ^ 32 = prev.numBytes + run.numBytes :=
    Nat.mod_eq_of_lt (by omega)
  simp only [RegionRawByteRun.bytes, whole, List.range_add, List.map_append, List.map_map]
  congr 1
  refine List.map_congr_left fun index _ => ?_
  simp only [Function.comp_apply, shard, ← device, ← host]
  push_cast
  rw [Int.add_assoc, Int.add_assoc]

theorem pushRun_bytes (runs : List RegionRawByteRun) (run : RegionRawByteRun) :
    runBytes (pushRun runs run) = runBytes runs ++ run.bytes := by
  rw [pushRun]
  split
  · next prev last =>
    split
    · next continued =>
      have ends : runs = runs.dropLast ++ [prev] :=
        (List.dropLast_append_getLast? prev last).symm
      rw [runBytes, List.flatMap_append, List.flatMap_singleton, continued.bytes,
        ← List.append_assoc]
      congr 1
      conv_rhs => rw [ends]
      rw [runBytes, List.flatMap_append, List.flatMap_singleton]
    · rw [runBytes, List.flatMap_append, List.flatMap_singleton, runBytes]
  · next none_ =>
    rw [List.getLast?_eq_none_iff.mp none_]
    exact List.append_nil _

/-- Merging keeps the pairs of the copies. -/
theorem mergedRuns_bytes {copies : List RawCopy} (fits : ∀ copy ∈ copies, copy.Fits) :
    runBytes (mergedRuns copies) = copies.flatMap (·.bytes) := by
  have appended (runs : List RegionRawByteRun) :
      runBytes ((copies.map RawCopy.run).foldl pushRun runs) =
        runBytes runs ++ copies.flatMap (·.bytes) := by
    induction copies generalizing runs with
    | nil => exact (List.append_nil _).symm
    | cons copy copies inductionHypothesis =>
      obtain ⟨first, rest⟩ := List.forall_mem_cons.mp fits
      rw [List.map_cons, List.foldl_cons, inductionHypothesis rest, pushRun_bytes,
        RawCopy.run_bytes first, List.flatMap_cons, List.append_assoc]
  exact appended []

/-- The fields of a run are words. -/
structure RegionRawByteRun.Words (run : RegionRawByteRun) : Prop where
  shardIndex : run.shardIndex < 2 ^ 32
  deviceByteOffset : run.deviceByteOffset < 2 ^ 32
  numBytes : run.numBytes < 2 ^ 32
  hostByteOffset : run.hostByteOffset < 2 ^ 64

theorem RawCopy.run_words (copy : RawCopy) : copy.run.Words := by
  have words (value : Int) : toU32 value < 2 ^ 32 := by
    rw [toU32]
    omega
  have host (value : Int) : toU64 value < 2 ^ 64 := by
    rw [toU64]
    omega
  exact ⟨words _, words _, words _, host _⟩

theorem pushRun_words {runs : List RegionRawByteRun} {run : RegionRawByteRun}
    (words : ∀ other ∈ runs, other.Words) (last : run.Words) :
    ∀ other ∈ pushRun runs run, other.Words := by
  intro other member
  rw [pushRun] at member
  split at member
  · next prev before =>
    split at member
    · obtain early | merged := List.mem_append.mp member
      · exact words other ((List.dropLast_sublist runs).subset early)
      · obtain rfl := List.mem_singleton.mp merged
        obtain ⟨shard, device, _, host⟩ := words prev (List.mem_of_getLast? before)
        exact ⟨shard, device, Nat.mod_lt _ (by decide), host⟩
    · obtain early | added := List.mem_append.mp member
      · exact words other early
      · exact List.mem_singleton.mp added ▸ last
  · exact List.mem_singleton.mp member ▸ last

theorem mergedRuns_words (copies : List RawCopy) : ∀ run ∈ mergedRuns copies, run.Words := by
  have kept (runs : List RegionRawByteRun) (words : ∀ run ∈ runs, run.Words) :
      ∀ run ∈ (copies.map RawCopy.run).foldl pushRun runs, run.Words := by
    induction copies generalizing runs with
    | nil => exact words
    | cons copy copies inductionHypothesis =>
      rw [List.map_cons, List.foldl_cons]
      exact inductionHypothesis _ (pushRun_words words copy.run_words)
  exact kept [] fun _ member => nomatch member

end KvCache.Lmcache.RawPlanners
