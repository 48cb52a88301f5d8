import Mathlib.Data.List.Basic

/-!
# Byte memories

A memory is a byte for every address. Blocks are copied in and out and ranges are
cleared. The lemmas say what a read sees after a write.
-/

namespace KvCache

/-- A byte for every address. -/
abbrev ByteMemory := Nat → UInt8

namespace ByteMemory

/-- The bytes from an address on. -/
def read (memory : ByteMemory) (address size : Nat) : List UInt8 :=
  (List.range size).map fun offset => memory (address + offset)

/-- Copy bytes to an address. -/
def write (memory : ByteMemory) (address : Nat) (bytes : List UInt8) : ByteMemory := fun other =>
  if address ≤ other then (bytes[other - address]?).getD (memory other) else memory other

/-- Set the bytes of a range to zero. -/
def clear (memory : ByteMemory) (start finish : Nat) : ByteMemory := fun other =>
  if start ≤ other ∧ other < finish then 0 else memory other

variable {memory : ByteMemory} {address size start finish : Nat} {bytes : List UInt8}

@[simp] theorem length_read : (read memory address size).length = size := by simp [read]

/-- A block copied from another memory is seen in its range only. -/
theorem write_read_apply (other : ByteMemory) (origin position : Nat) :
    write memory address (read other origin size) position =
      if address ≤ position ∧ position < address + size then
        other (origin + (position - address))
      else memory position := by
  unfold write read
  by_cases after : address ≤ position
  · by_cases inside : position < address + size
    · have index : position - address < size := by omega
      simp [after, inside, index]
    · have outside : ¬ position - address < size := by omega
      simp [after, inside, outside]
  · simp [after]

/-- What lies behind a block stays. -/
theorem write_behind {position : Nat} (behind : address + bytes.length ≤ position) :
    write memory address bytes position = memory position := by
  unfold write
  rw [if_pos (by omega), List.getElem?_eq_none (by omega), Option.getD_none]

/-- Clearing an empty range changes nothing. -/
theorem clear_empty (empty : finish ≤ start) : clear memory start finish = memory := by
  funext other
  apply if_neg
  omega

end ByteMemory

end KvCache
