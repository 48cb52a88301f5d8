import Mathlib.Data.Nat.ModEq

/-!
# Counters that wrap

A counter only grows, but its word keeps the residue modulo a power of the machine. The
distance between two words is the distance between the counts as long as the later count is
less than one modulus ahead.

Which of two words belongs to the larger count is decided by the half of the modulus in which
their distance lies. The decision is right in both directions as long as neither count is half
a modulus ahead of the other.
-/

namespace KvCache.WrappedCounter

variable {modulus later earlier observed target : Nat}

/-- Steps from one word to another, as the machine subtracts them. -/
def distance (modulus later earlier : Nat) : Nat := (later + modulus - earlier) % modulus

/-- Whether a word is ahead of another by less than half of the modulus. -/
def isAhead (modulus observed target : Nat) : Bool :=
  distance modulus observed target != 0 && decide (2 * distance modulus observed target < modulus)

/-- Words are as far apart as their counts.

Proof: the later count is the earlier one and less than a modulus, so that its word is the
earlier word and that many steps, reduced at most once. -/
theorem distance_eq (ordered : earlier ≤ later) (near : later < earlier + modulus) :
    distance modulus (later % modulus) (earlier % modulus) = later - earlier := by
  obtain ⟨steps, rfl⟩ := Nat.exists_eq_add_of_le ordered
  have small : steps < modulus := by omega
  have below : earlier % modulus < modulus := Nat.mod_lt _ (by omega)
  rw [distance, Nat.add_mod, Nat.mod_eq_of_lt small, Nat.add_sub_cancel_left]
  rcases Nat.lt_or_ge (earlier % modulus + steps) modulus with fits | wraps
  · rw [Nat.mod_eq_of_lt fits]
    have stepped : earlier % modulus + steps + modulus - earlier % modulus = steps + modulus := by omega
    rw [stepped, Nat.add_mod_right, Nat.mod_eq_of_lt small]
  · rw [Nat.mod_eq_sub_mod wraps,
      Nat.mod_eq_of_lt (by omega : earlier % modulus + steps - modulus < modulus)]
    have stepped : earlier % modulus + steps - modulus + modulus - earlier % modulus = steps := by omega
    rw [stepped, Nat.mod_eq_of_lt small]

/-- Words one of whose counts is behind are apart by the rest of the modulus. -/
theorem distance_behind (behind : later < earlier) (near : earlier < later + modulus) :
    distance modulus (later % modulus) (earlier % modulus) = modulus - (earlier - later) := by
  have wrapped : (later + modulus) % modulus = later % modulus := Nat.add_mod_right later modulus
  rw [← wrapped, distance_eq (by omega) (by omega)]
  omega

/-- Distances order the counts before a common one the other way round. -/
theorem le_of_distance_le {now other : Nat} (past : earlier ≤ now) (near : now < earlier + modulus)
    (past' : other ≤ now) (near' : now < other + modulus)
    (closer : distance modulus (now % modulus) (other % modulus) ≤
      distance modulus (now % modulus) (earlier % modulus)) : earlier ≤ other := by
  rw [distance_eq past near, distance_eq past' near'] at closer
  omega

/-- The half range decides which count is larger. -/
theorem isAhead_iff (ahead : 2 * observed < 2 * target + modulus)
    (behind : 2 * target < 2 * observed + modulus) :
    isAhead modulus (observed % modulus) (target % modulus) = true ↔ target < observed := by
  rw [isAhead, Bool.and_eq_true, bne_iff_ne, decide_eq_true_eq]
  rcases Nat.lt_or_ge observed target with less | reached
  · rw [distance_behind less (by omega)]
    omega
  · rw [distance_eq reached (by omega)]
    omega

/-- A word that is ahead is never behind, however far the counts are apart in that direction. -/
theorem reached_of_isAhead (behind : 2 * target < 2 * observed + modulus)
    (ahead : isAhead modulus (observed % modulus) (target % modulus) = true) :
    target < observed := by
  rcases Nat.lt_or_ge observed target with less | reached
  · exact (isAhead_iff (by omega) behind).mp ahead
  · rcases Nat.eq_or_lt_of_le reached with same | more
    · rw [isAhead, same, distance_eq le_rfl (by omega)] at ahead
      simp at ahead
    · exact more

/-- Words are the same exactly if the counts are, while neither is a modulus ahead. -/
theorem mod_eq_iff (ahead : observed < target + modulus) (behind : target < observed + modulus) :
    observed % modulus = target % modulus ↔ observed = target := by
  constructor
  · intro same
    rcases Nat.lt_or_ge observed target with less | reached
    · have apart := distance_behind less behind
      rw [same, distance_eq le_rfl (by omega)] at apart
      omega
    · have apart := distance_eq reached ahead
      rw [same, distance_eq le_rfl (by omega)] at apart
      omega
  · intro same
    rw [same]

end KvCache.WrappedCounter
