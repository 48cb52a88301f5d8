import Mathlib.Data.Nat.Log
import Mathlib.Tactic.Ring

/-!
# Layout constants and size classes

Constants and pure functions of the protocol headers: the value chunk size, the
number of chunks of a value, the buddy order of a value, the number of hash
buckets and the normalisation of the configured heap size. Loops that double a
power of two are written with a step bound that their argument never exhausts;
the lemmas beside them give the closed form.

Words are natural numbers. Sizes are bounded by the heap, which the parser keeps
below the 32-bit range, so no size computation of a legal value wraps.
-/

namespace KvCache.Layout

/-- Bytes of one value chunk, the unit of the value heap. -/
def maxChunkValueBytes : Nat := 4288

/-- Chunks per progress event of a streamed PUT. -/
def putStreamProgressChunks : Nat := 256

/-- Smallest value that is streamed. -/
def putStreamMinBytes : Nat := 2 * 2 ^ 20

/-- Length of the pending-host FIFO at which new requests wait. -/
def putHostQueueHighWatermark : Nat := 8

/-- Longest key of the wire format. -/
def maxPutKeyBytes : Nat := 128

/-- Chunks of a value of the given length; none for the empty value. -/
def chunkCountFor (bytes : Nat) : Nat :=
  if bytes = 0 then 0 else 1 + (bytes - 1) / maxChunkValueBytes

/-- The doubling loop `while (power < value) power <<= 1`, counting its rounds. -/
def doublings (value : Nat) : Nat → Nat → Nat → Nat
  | 0, _, rounds => rounds
  | fuel + 1, power, rounds =>
    if power < value then doublings value fuel (2 * power) (rounds + 1) else rounds

/-- Rounds until a power of two reaches the value. -/
def roundsTo (value : Nat) : Nat := doublings value value 1 0

/-- Smallest order whose block holds the units. -/
def buddyOrderForUnits (units : Nat) : Nat := roundsTo units

/-- Smallest power of two not below the value. -/
def ceilPowerOfTwo (value : Nat) : Nat := 2 ^ roundsTo value

/-- Buddy order of a value of the given length. -/
def buddyOrderForValueBytes (bytes : Nat) : Nat := buddyOrderForUnits (chunkCountFor bytes)

/-- Units of the block of a value of the given length. -/
def buddyBlockUnitsFor (bytes : Nat) : Nat := ceilPowerOfTwo (chunkCountFor bytes)

/-- Largest order whose block does not exceed the value; zero for zero. -/
def floorLog2 (value : Nat) : Nat := Nat.log2 value

/-- Buckets of the hash index: a power of two and at least twice the slots. -/
def hashNumBuckets (maxKeys : Nat) : Nat :=
  ceilPowerOfTwo (if maxKeys = 0 then 2 else maxKeys * 2)

/-- The requested heap size in whole units, raised to the block of one value of
the maximal length. -/
def normalizeValueHeapBytes (requestedBytes maxValueBytes : Nat) : Nat :=
  let roundedRequest := requestedBytes / maxChunkValueBytes * maxChunkValueBytes
  let minimum := buddyBlockUnitsFor maxValueBytes * maxChunkValueBytes
  if roundedRequest < minimum then minimum else roundedRequest

/-- The loop stops at the first power of two that reaches the value. -/
theorem doublings_spec (value fuel rounds : Nat) (enough : value ≤ 2 ^ rounds * 2 ^ fuel)
    (minimal : ∀ lower < rounds, 2 ^ lower < value) :
    value ≤ 2 ^ doublings value fuel (2 ^ rounds) rounds ∧
      ∀ lower < doublings value fuel (2 ^ rounds) rounds, 2 ^ lower < value := by
  induction fuel generalizing rounds with
  | zero =>
    refine ⟨?_, minimal⟩
    simpa [doublings] using enough
  | succ fuel inductionHypothesis =>
    unfold doublings
    split
    · next less =>
      have doubled : 2 * 2 ^ rounds = 2 ^ (rounds + 1) := by ring
      rw [doubled]
      refine inductionHypothesis (rounds + 1) ?_ ?_
      · calc value ≤ 2 ^ rounds * 2 ^ (fuel + 1) := enough
          _ = 2 ^ (rounds + 1) * 2 ^ fuel := by ring
      · intro lower below
        rcases Nat.lt_succ_iff_lt_or_eq.mp below with before | rfl
        · exact minimal lower before
        · exact less
    · next reached => exact ⟨Nat.le_of_not_lt reached, minimal⟩

/-- The order of a block is the least one whose size reaches the value. -/
theorem roundsTo_spec (value : Nat) :
    value ≤ 2 ^ roundsTo value ∧ ∀ order, value ≤ 2 ^ order → roundsTo value ≤ order := by
  have spec := doublings_spec value value 0 (by simpa using Nat.lt_two_pow_self.le) (by simp)
  simp only [Nat.pow_zero] at spec
  refine ⟨spec.1, fun order reaches => ?_⟩
  by_contra smaller
  exact absurd (spec.2 order (Nat.lt_of_not_le smaller)) (Nat.not_lt.mpr reaches)

theorem units_le_block (units : Nat) : units ≤ 2 ^ buddyOrderForUnits units :=
  (roundsTo_spec units).1

theorem buddyOrderForUnits_le {units order : Nat} (fits : units ≤ 2 ^ order) :
    buddyOrderForUnits units ≤ order :=
  (roundsTo_spec units).2 order fits

theorem buddyOrderForUnits_mono {fewer more : Nat} (ordered : fewer ≤ more) :
    buddyOrderForUnits fewer ≤ buddyOrderForUnits more :=
  buddyOrderForUnits_le (ordered.trans (units_le_block more))

theorem chunkCountFor_pos {bytes : Nat} (positive : 0 < bytes) : 0 < chunkCountFor bytes := by
  rw [chunkCountFor, if_neg (Nat.pos_iff_ne_zero.mp positive)]
  exact Nat.add_pos_left Nat.one_pos _

/-- The chunks of a value hold it. -/
theorem le_chunkCountFor_mul (bytes : Nat) : bytes ≤ chunkCountFor bytes * maxChunkValueBytes := by
  unfold chunkCountFor maxChunkValueBytes
  split <;> omega

theorem chunkCountFor_mono {shorter longer : Nat} (ordered : shorter ≤ longer) :
    chunkCountFor shorter ≤ chunkCountFor longer := by
  have quotient : (shorter - 1) / maxChunkValueBytes ≤ (longer - 1) / maxChunkValueBytes :=
    Nat.div_le_div_right (Nat.sub_le_sub_right ordered 1)
  unfold chunkCountFor
  split
  · exact Nat.zero_le _
  · rw [if_neg (by omega)]
    exact Nat.add_le_add_left quotient 1

theorem maxChunkValueBytes_pos : 0 < maxChunkValueBytes := by decide

/-- The bucket count is a power of two with room for twice the slots. -/
theorem hashNumBuckets_spec (maxKeys : Nat) :
    (∃ bits, hashNumBuckets maxKeys = 2 ^ bits) ∧ 2 * maxKeys ≤ hashNumBuckets maxKeys ∧
      2 ≤ hashNumBuckets maxKeys := by
  have reach := (roundsTo_spec (if maxKeys = 0 then 2 else maxKeys * 2)).1
  have requested : 2 * maxKeys ≤ (if maxKeys = 0 then 2 else maxKeys * 2) ∧
      2 ≤ (if maxKeys = 0 then 2 else maxKeys * 2) := by
    split <;> omega
  exact ⟨⟨_, rfl⟩, requested.1.trans reach, requested.2.trans reach⟩

/-- The normalised heap is whole units and holds the block of one value of the
maximal length. -/
theorem normalizeValueHeapBytes_spec (requestedBytes maxValueBytes : Nat) :
    maxChunkValueBytes ∣ normalizeValueHeapBytes requestedBytes maxValueBytes ∧
      buddyBlockUnitsFor maxValueBytes
        ≤ normalizeValueHeapBytes requestedBytes maxValueBytes / maxChunkValueBytes := by
  have positive := maxChunkValueBytes_pos
  unfold normalizeValueHeapBytes
  simp only
  split
  · exact ⟨Nat.dvd_mul_left _ _, (Nat.mul_div_cancel _ positive).ge⟩
  · next enough =>
    refine ⟨Nat.dvd_mul_left _ _, ?_⟩
    rw [Nat.mul_div_cancel _ positive]
    exact Nat.le_of_mul_le_mul_right (Nat.le_of_not_lt enough) positive

end KvCache.Layout
