import Mathlib.Data.List.Basic
import Mathlib.Data.Nat.ModEq

/-!
# Units over banks

Consecutive units go to consecutive banks and take consecutive rows of a bank. A run of
units that starts at any origin has in every bank one stretch of rows, which begins with one
of its first units. The units of the run are those of its stretches, each once.
-/

namespace KvCache.Interleaved

variable {banks origin units bank : Nat}

/-- The first unit of a run that lies in a bank, counted from the origin. -/
def first (banks origin bank : Nat) : Nat := (bank + banks - origin % banks) % banks

/-- How many units of a run lie in the bank of one of its first units. -/
def count (banks units first : Nat) : Nat := 1 + (units - 1 - first) / banks

theorem first_lt (some : 0 < banks) : first banks origin bank < banks := Nat.mod_lt _ some

/-- The first unit lies in its bank. -/
theorem first_bank (inside : bank < banks) : (origin + first banks origin bank) % banks = bank := by
  have some : 0 < banks := Nat.zero_lt_of_lt inside
  have rotation := Nat.mod_lt origin some
  have whole : origin % banks + (bank + banks - origin % banks) = bank + banks := by omega
  calc (origin + first banks origin bank) % banks
      = (origin % banks + (bank + banks - origin % banks)) % banks := by
        rw [first, Nat.add_mod, Nat.mod_mod, ← Nat.add_mod_mod, Nat.mod_mod, Nat.add_mod_mod]
    _ = bank := by rw [whole, Nat.add_mod_right, Nat.mod_eq_of_lt inside]

/-- The first unit in the bank of a unit is its remainder. -/
theorem first_of_unit (some : 0 < banks) (unit : Nat) :
    first banks origin ((origin + unit) % banks) = unit % banks := by
  have inside := Nat.mod_lt (origin + unit) some
  have same : (origin + first banks origin ((origin + unit) % banks)) % banks =
      (origin + unit) % banks := first_bank inside
  have equal : first banks origin ((origin + unit) % banks) % banks = unit % banks :=
    Nat.ModEq.add_left_cancel' origin same
  rwa [Nat.mod_eq_of_lt (first_lt some)] at equal

/-- The units after the first one by whole rounds lie in its bank, row after row. -/
theorem bank_of_round (inside : bank < banks) (round : Nat) :
    (origin + (first banks origin bank + round * banks)) % banks = bank := by
  rw [← Nat.add_assoc, Nat.add_mul_mod_self_right, first_bank inside]

theorem row_of_round (some : 0 < banks) (start round : Nat) :
    (origin + (start + round * banks)) / banks = (origin + start) / banks + round := by
  rw [← Nat.add_assoc, Nat.add_mul_div_right _ _ some]

/-- The units of the stretch of a bank are those of the run. -/
theorem round_lt_count {start : Nat} (some : 0 < banks) (listed : start < units) (round : Nat) :
    round < count banks units start ↔ start + round * banks < units := by
  unfold count
  rw [Nat.add_comm 1, Nat.lt_succ_iff, Nat.le_div_iff_mul_le some]
  omega

/-- A unit of the run belongs to the stretch of its bank. -/
theorem unit_in_stretch {unit : Nat} (some : 0 < banks) (inside : unit < units) :
    unit % banks < units ∧ unit / banks < count banks units (unit % banks) ∧
      unit % banks + unit / banks * banks = unit := by
  have split : unit % banks + unit / banks * banks = unit := Nat.mod_add_div' unit banks
  have listed : unit % banks < units := Nat.lt_of_le_of_lt (Nat.mod_le _ _) inside
  refine ⟨listed, ?_, split⟩
  rw [round_lt_count some listed, split]
  exact inside

/-- A stretch has no more rows than an even share of the run, rounded up. -/
theorem count_le {start : Nat} (some : 0 < banks) (listed : start < units) :
    count banks units start ≤ (units + banks - 1) / banks := by
  unfold count
  rw [Nat.le_div_iff_mul_le some, Nat.add_mul, Nat.one_mul]
  have share := Nat.div_mul_le_self (units - 1 - start) banks
  omega

end KvCache.Interleaved
