import Mathlib.Data.List.Basic
import Mathlib.Algebra.Order.Ring.Nat
import Mathlib.Tactic.Ring

/-!
# Sequences of equal blocks

A concatenation of blocks of one length is cut back into the blocks by slices at
multiples of that length. A range of numbers is cut into consecutive groups of one
size, the last one possibly shorter.

The element type is a parameter. A slice follows the bounds of a half-open interval and
is cut at the end of the sequence.
-/

namespace KvCache.EqualBlocks

universe u
variable {α : Type u}

/-- The elements from `start` up to `stop`. -/
def slice (values : List α) (start stop : Nat) : List α := (values.take stop).drop start

/-- A write of a value at the start of a buffer. -/
def overwrite (value buffer : List α) : List α := value ++ buffer.drop value.length

theorem slice_length (values : List α) {start stop : Nat} (inside : stop ≤ values.length) :
    (slice values start stop).length = stop - start := by
  simp [slice, Nat.min_eq_left inside]

/-- A slice behind a prefix is a slice of what follows it. -/
theorem slice_append_right (front back : List α) (start stop : Nat) :
    slice (front ++ back) (front.length + start) (front.length + stop) = slice back start stop := by
  simp only [slice, List.take_length_add_append, List.drop_length_add_append]

/-- A slice within a prefix is a slice of the prefix. -/
theorem slice_append_left (front back : List α) (start : Nat) {stop : Nat}
    (inside : stop ≤ front.length) : slice (front ++ back) start stop = slice front start stop := by
  simp only [slice, List.take_append_of_le_length inside]

/-- A value as long as the buffer replaces it. -/
theorem overwrite_whole {value buffer : List α} (same : value.length = buffer.length) :
    overwrite value buffer = value := by
  simp [overwrite, same]

theorem overwrite_length {value buffer : List α} (fits : value.length ≤ buffer.length) :
    (overwrite value buffer).length = buffer.length := by
  simp only [overwrite, List.length_append, List.length_drop]
  omega

/-! ## Concatenations -/

/-- Blocks of one length have a concatenation of a multiple of it. -/
theorem flatten_length {blocks : List (List α)} {size : Nat}
    (equal : ∀ block ∈ blocks, block.length = size) :
    blocks.flatten.length = blocks.length * size := by
  induction blocks with
  | nil => simp
  | cons block rest inductionHypothesis =>
    have first := equal block List.mem_cons_self
    have later := inductionHypothesis fun other member => equal other (.tail _ member)
    rw [List.flatten_cons, List.length_append, first, later, List.length_cons]
    ring

/-- The slice at a multiple of the length is the block of that number. -/
theorem slice_flatten {blocks : List (List α)} {size : Nat}
    (equal : ∀ block ∈ blocks, block.length = size) {index : Nat} {block : List α}
    (numbered : blocks[index]? = some block) :
    slice blocks.flatten (index * size) (index * size + size) = block := by
  induction blocks generalizing index with
  | nil => simp at numbered
  | cons first rest inductionHypothesis =>
    have width : first.length = size := equal first List.mem_cons_self
    cases index with
    | zero =>
      have found : first = block := by simpa using numbered
      subst found
      rw [List.flatten_cons, slice_append_left _ _ _ (by omega)]
      simp [slice, ← width]
    | succ index =>
      have later := inductionHypothesis (fun other member => equal other (.tail _ member))
        (by simpa using numbered)
      have shifted : (index + 1) * size = first.length + index * size := by
        rw [width]
        ring
      rw [List.flatten_cons, shifted, Nat.add_assoc, slice_append_right, later]

/-! ## Groups of a range -/

/-- The numbers below `count` in groups of `size`, from the group that starts at `start`. -/
def groupsFrom (size count : Nat) : Nat → Nat → List (List Nat)
  | 0, _ => []
  | fuel + 1, start =>
    if start < count then
      List.range' start (min (start + size) count - start) ::
        groupsFrom size count fuel (start + size)
    else []

/-- The numbers below `count` in groups of `size`. -/
def groups (size count : Nat) : List (List Nat) := groupsFrom size count count 0

theorem groupsFrom_flatten {size : Nat} (positive : 0 < size) (count fuel start : Nat)
    (enough : count ≤ start + fuel) :
    (groupsFrom size count fuel start).flatten = List.range' start (count - start) := by
  induction fuel generalizing start with
  | zero =>
    have past : count - start = 0 := by omega
    simp [groupsFrom, past]
  | succ fuel inductionHypothesis =>
    unfold groupsFrom
    split
    · rename_i inside
      rw [List.flatten_cons, inductionHypothesis (start + size) (by omega)]
      by_cases last : count ≤ start + size
      · have none : count - (start + size) = 0 := by omega
        rw [Nat.min_eq_right last, none]
        simp
      · have split : count - start = size + (count - (start + size)) := by omega
        rw [Nat.min_eq_left (by omega), Nat.add_sub_cancel_left, split, List.range'_append_1]
    · have past : count - start = 0 := by omega
      simp [past]

/-- The groups partition the range. -/
theorem groups_flatten {size : Nat} (positive : 0 < size) (count : Nat) :
    (groups size count).flatten = List.range count := by
  rw [groups, groupsFrom_flatten positive count count 0 (by omega), List.range_eq_range',
    Nat.sub_zero]

theorem groupsFrom_bounded {size : Nat} (positive : 0 < size) (count fuel start : Nat) :
    ∀ group ∈ groupsFrom size count fuel start, 0 < group.length ∧ group.length ≤ size := by
  induction fuel generalizing start with
  | zero => simp [groupsFrom]
  | succ fuel inductionHypothesis =>
    unfold groupsFrom
    split
    · intro group member
      rcases List.mem_cons.mp member with rfl | later
      · rw [List.length_range']
        omega
      · exact inductionHypothesis (start + size) group later
    · simp

/-- A group has a member and at most `size` of them. -/
theorem groups_bounded {size : Nat} (positive : 0 < size) (count : Nat) :
    ∀ group ∈ groups size count, 0 < group.length ∧ group.length ≤ size :=
  groupsFrom_bounded positive count count 0

end KvCache.EqualBlocks
