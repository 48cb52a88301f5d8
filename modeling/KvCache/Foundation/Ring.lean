import Mathlib.Data.List.Basic
import Mathlib.Logic.Function.Basic

/-!
# Ring buffers

A queue in a fixed number of cells: an index to take from, an index to put at, and a
count. Both indices go back to zero at the end of the cells. Cells outside the queue keep
what was in them.

The indices delimit the queue if the one lies the count behind the other. Then the items
are read off the cells, putting one appends it and taking one removes the first, whatever
the number of cells.
-/

namespace KvCache

universe u

/-- A ring buffer. -/
structure Ring (α : Type u) where
  head : Nat
  tail : Nat
  count : Nat
  cell : Nat → α

namespace Ring

open Function

variable {α : Type u} {capacity : Nat} {ring : Ring α}

/-- An empty ring buffer. -/
def empty (cell : Nat → α) : Ring α := ⟨0, 0, 0, cell⟩

/-- The index after an index. -/
def next (capacity index : Nat) : Nat := if index + 1 = capacity then 0 else index + 1

/-- Put an item. -/
def put (capacity : Nat) (item : α) (ring : Ring α) : Ring α :=
  { ring with
    cell := update ring.cell ring.tail item
    tail := next capacity ring.tail
    count := ring.count + 1 }

/-- Take the first item away. -/
def take (capacity : Nat) (ring : Ring α) : Ring α :=
  { ring with head := next capacity ring.head, count := ring.count - 1 }

/-- The items of a number of cells from an index on. -/
def itemsFrom (capacity : Nat) (cell : Nat → α) : Nat → Nat → List α
  | 0, _ => []
  | count + 1, index => cell index :: itemsFrom capacity cell count (next capacity index)

/-- The items in the order in which they were put. -/
def items (capacity : Nat) (ring : Ring α) : List α :=
  itemsFrom capacity ring.cell ring.count ring.head

/-- The index some steps after an index. -/
def after (capacity index steps : Nat) : Nat :=
  if index + steps < capacity then index + steps else index + steps - capacity

/-- The indices delimit the queue. -/
structure Delimits (capacity : Nat) (ring : Ring α) : Prop where
  head : ring.head < capacity
  count : ring.count ≤ capacity
  tail : ring.tail = after capacity ring.head ring.count

theorem next_lt {index : Nat} (inside : index < capacity) : next capacity index < capacity := by
  unfold next
  split <;> omega

/-- A step more is a step from the next index. -/
theorem after_next {index steps : Nat} (few : steps < capacity) :
    after capacity (next capacity index) steps = after capacity index (steps + 1) := by
  unfold after next
  split <;> split <;> split <;> omega

theorem next_after {index steps : Nat} (inside : index < capacity) (few : steps < capacity) :
    next capacity (after capacity index steps) = after capacity index (steps + 1) := by
  unfold after next
  split <;> split <;> split <;> omega

@[simp] theorem length_itemsFrom (cell : Nat → α) (count index : Nat) :
    (itemsFrom capacity cell count index).length = count := by
  induction count generalizing index with
  | zero => rfl
  | succ count inductionHypothesis =>
    rw [itemsFrom, List.length_cons, inductionHypothesis]

@[simp] theorem length_items : (ring.items capacity).length = ring.count :=
  length_itemsFrom ring.cell ring.count ring.head

/-- A cell past the items does not show. -/
theorem itemsFrom_update (cell : Nat → α) (item : α) (count : Nat) :
    ∀ index steps, index < capacity → count ≤ steps → steps < capacity →
      itemsFrom capacity (update cell (after capacity index steps) item) count index =
        itemsFrom capacity cell count index := by
  induction count with
  | zero => exact fun _ _ _ _ _ => rfl
  | succ count inductionHypothesis =>
    intro index steps inside enough few
    obtain ⟨steps, rfl⟩ : ∃ fewer, steps = fewer + 1 := ⟨steps - 1, by omega⟩
    have apart : index ≠ after capacity index (steps + 1) := by
      unfold after
      split <;> omega
    rw [itemsFrom, itemsFrom, update_of_ne apart, ← after_next (by omega),
      inductionHypothesis _ steps (next_lt inside) (by omega) (by omega)]

/-- One more cell at the end. -/
theorem itemsFrom_succ (cell : Nat → α) (count : Nat) :
    ∀ index, index < capacity → count < capacity →
      itemsFrom capacity cell (count + 1) index =
        itemsFrom capacity cell count index ++ [cell (after capacity index count)] := by
  induction count with
  | zero =>
    intro index inside _
    rw [after, if_pos (by omega)]
    rfl
  | succ count inductionHypothesis =>
    intro index inside few
    rw [itemsFrom, inductionHypothesis _ (next_lt inside) (by omega), itemsFrom,
      after_next (by omega)]
    rfl

/-- Nothing is in an empty ring buffer. -/
theorem Delimits.empty (positive : 0 < capacity) (cell : Nat → α) :
    Delimits capacity (Ring.empty cell) := by
  refine ⟨positive, Nat.zero_le _, ?_⟩
  rw [after, if_pos]
  · rfl
  · exact positive

/-- The index to put at lies inside. -/
theorem Delimits.tail_lt (delimits : Delimits capacity ring) : ring.tail < capacity := by
  have inside := delimits.head
  have few := delimits.count
  rw [delimits.tail, after]
  split <;> omega

/-- Putting an item in a free cell appends it. -/
theorem Delimits.put (delimits : Delimits capacity ring) (free : ring.count < capacity)
    (item : α) : Delimits capacity (ring.put capacity item) ∧
      (ring.put capacity item).items capacity = ring.items capacity ++ [item] := by
  refine ⟨⟨delimits.head, free, ?_⟩, ?_⟩
  · change next capacity ring.tail = after capacity ring.head (ring.count + 1)
    rw [delimits.tail, next_after delimits.head free]
  · change itemsFrom capacity (update ring.cell ring.tail item) (ring.count + 1) ring.head = _
    rw [itemsFrom_succ _ _ _ delimits.head free, delimits.tail, update_self,
      itemsFrom_update _ _ _ _ _ delimits.head (Nat.le_refl _) free]
    rfl

/-- Taking removes the first item. -/
theorem Delimits.take (delimits : Delimits capacity ring) (some : ring.count ≠ 0) :
    Delimits capacity (ring.take capacity) ∧
      ring.items capacity = ring.cell ring.head :: (ring.take capacity).items capacity := by
  obtain ⟨count, counted⟩ := Nat.exists_eq_succ_of_ne_zero some
  have few := delimits.count
  have inside := delimits.head
  refine ⟨⟨next_lt inside, ?_, ?_⟩, ?_⟩
  · change ring.count - 1 ≤ capacity
    omega
  · change ring.tail = after capacity (next capacity ring.head) (ring.count - 1)
    rw [delimits.tail, counted, Nat.succ_sub_one, after_next (by omega)]
  · rw [items, counted, itemsFrom]
    change _ = _ :: itemsFrom capacity ring.cell (ring.count - 1) (next capacity ring.head)
    rw [counted, Nat.succ_sub_one]

end Ring

end KvCache
