import Mathlib.Data.List.Basic
import Mathlib.Tactic.Ring

/-!
# Sequences cut into chunks

A sequence is stored as numbered chunks of a fixed size, the last one possibly
shorter. Reading it back gathers as many chunks as its length needs, each brought
to the length that its position determines. A chunk of another length is cut or
filled up, as a memory read of a fixed extent would do, so the length of what is
read never depends on what was stored.

The element type and the chunk size are parameters.
-/

namespace KvCache.Chunked

universe u
variable {α : Type u} (size : Nat)

/-- Chunk of the given number. -/
def chunkAt (value : List α) (index : Nat) : List α := (value.drop (index * size)).take size

/-- Bring a sequence to a length. -/
def fit (filler : α) (length : Nat) (chunk : List α) : List α :=
  (chunk ++ List.replicate length filler).take length

/-- Read the first chunks of a store, at most `length` elements in all. -/
def gatherFrom (filler : α) (store : Nat → List α) : Nat → Nat → Nat → List α
  | 0, _, _ => []
  | count + 1, index, length =>
    fit filler (min size length) (store index) ++
      gatherFrom filler store count (index + 1) (length - size)

/-- Read a value of the given length from a store of chunks. -/
def gather (filler : α) (count length : Nat) (store : Nat → List α) : List α :=
  gatherFrom size filler store count 0 length

variable {size} {filler : α}

theorem fit_eq {length : Nat} {chunk : List α} (exact : chunk.length = length) :
    fit filler length chunk = chunk := by
  unfold fit
  rw [← exact, List.take_left']
  rfl

@[simp] theorem fit_length (length : Nat) (chunk : List α) :
    (fit filler length chunk).length = length := by
  simp [fit]

theorem gatherFrom_congr {left right : Nat → List α} {count index length : Nat}
    (same : ∀ position, index ≤ position → position < index + count →
      left position = right position) :
    gatherFrom size filler left count index length =
      gatherFrom size filler right count index length := by
  induction count generalizing index length with
  | zero => rfl
  | succ count inductionHypothesis =>
    unfold gatherFrom
    rw [same index (Nat.le_refl _) (by omega),
      inductionHypothesis fun position lower upper => same position (by omega) (by omega)]

/-- What is read depends on the chunks that the length needs only. -/
theorem gather_congr {left right : Nat → List α} {count length : Nat}
    (same : ∀ index < count, left index = right index) :
    gather size filler count length left = gather size filler count length right :=
  gatherFrom_congr fun position _ below => same position (by omega)

theorem gatherFrom_length {store : Nat → List α} {count index length : Nat}
    (enough : length ≤ count * size) :
    (gatherFrom size filler store count index length).length = length := by
  induction count generalizing index length with
  | zero =>
    have nothing : length = 0 := by simpa using enough
    simp [gatherFrom, nothing]
  | succ count inductionHypothesis =>
    have scaled : (count + 1) * size = count * size + size := by ring
    unfold gatherFrom
    rw [List.length_append, fit_length, inductionHypothesis (by omega)]
    omega

/-- A read of enough chunks has the requested length. -/
theorem gather_length {store : Nat → List α} {count length : Nat}
    (enough : length ≤ count * size) : (gather size filler count length store).length = length :=
  gatherFrom_length enough

theorem gatherFrom_chunkAt (value : List α) (count index : Nat)
    (enough : value.length ≤ (index + count) * size) :
    gatherFrom size filler (chunkAt size value) count index (value.length - index * size) =
      value.drop (index * size) := by
  induction count generalizing index with
  | zero =>
    have past : value.length ≤ index * size := by simpa using enough
    rw [gatherFrom, List.drop_eq_nil_of_le past]
  | succ count inductionHypothesis =>
    have scaled : (index + 1) * size = index * size + size := by ring
    have rest := inductionHypothesis (index + 1) (by rwa [Nat.add_assoc, Nat.add_comm 1])
    have exact : (chunkAt size value index).length = min size (value.length - index * size) := by
      simp [chunkAt]
    unfold gatherFrom
    rw [fit_eq exact, Nat.sub_sub, ← scaled, rest, chunkAt, scaled, ← List.drop_drop]
    exact List.take_append_drop size _

/-- Reading the chunks of a value gives the value. -/
theorem gather_chunkAt {value : List α} {count : Nat} (enough : value.length ≤ count * size) :
    gather size filler count value.length (chunkAt size value) = value := by
  have whole : gatherFrom size filler (chunkAt size value) count 0 _ = _ :=
    gatherFrom_chunkAt value count 0 (by simpa using enough)
  simpa [gather] using whole

end KvCache.Chunked
