import Mathlib.Order.Nat
import Mathlib.Tactic.SplitIfs

/-!
# Linear probing round a ring

Positions are the numbers below `ring`. A table is seen through two functions of
the position: whether it is occupied and, if it is, the home of its item. An item
is reachable when no position from its home up to its own is empty.

Filling the first empty position after a home keeps every item reachable. Removal
by backward shift is followed through one loop invariant: paths may cross the
hole only on their way to items that the scan has not passed yet, so the hole can
be emptied as soon as the scan meets an empty position.
-/

namespace KvCache.CyclicProbe

variable {ring : Nat} {Occupied Occupied' : Nat → Prop} {home home' : Nat → Nat}

/-- Forward steps from one position to another. -/
def distance (ring first last : Nat) : Nat :=
  if first ≤ last then last - first else last + ring - first

/-- The following position. -/
def advance (ring position : Nat) : Nat := if position + 1 = ring then 0 else position + 1

theorem advance_lt {position : Nat} (below : position < ring) : advance ring position < ring := by
  unfold advance
  split <;> omega

theorem distance_lt {first last : Nat} (firstBelow : first < ring) (lastBelow : last < ring) :
    distance ring first last < ring := by
  unfold distance
  split <;> omega

@[simp] theorem distance_self (position : Nat) : distance ring position position = 0 := by
  simp [distance]

theorem distance_eq_zero {first last : Nat} (firstBelow : first < ring) (none : distance ring first last = 0) : first = last := by
  unfold distance at none
  split at none <;> omega

/-- A step moves one further from every position but the one it enters. -/
theorem distance_advance {first position : Nat} (firstBelow : first < ring) (away : advance ring position ≠ first) :
    distance ring first (advance ring position) = distance ring first position + 1 := by
  unfold advance distance at *
  split_ifs at * <;> omega

/-- A step comes one closer to every position but the one it leaves. -/
theorem advance_distance {position last : Nat} (below : position < ring)
    (lastBelow : last < ring) (away : position ≠ last) :
    distance ring position last = distance ring (advance ring position) last + 1 := by
  unfold advance distance at *
  split_ifs at * <;> omega

/-- Distances add up, up to one turn. -/
theorem distance_add {first middle last : Nat} (firstBelow : first < ring)
    (middleBelow : middle < ring) (lastBelow : last < ring)
    (ordered : distance ring first middle ≤ distance ring first last) :
    distance ring first last = distance ring first middle + distance ring middle last := by
  unfold distance at *
  split_ifs at * <;> omega

/-- Seen from a fixed position, distances determine positions. -/
theorem distance_inj {first left right : Nat} (firstBelow : first < ring)
    (leftBelow : left < ring) (rightBelow : right < ring)
    (same : distance ring first left = distance ring first right) : left = right := by
  unfold distance at *
  split_ifs at * <;> omega

/-- No position from the home of an item up to the item is empty. -/
def Reachable (ring : Nat) (Occupied : Nat → Prop) (home : Nat → Nat) : Prop :=
  ∀ position < ring, Occupied position → home position < ring ∧
    ∀ between < ring, distance ring (home position) between < distance ring (home position) position →
      Occupied between

/-- Filling the first empty position after a home keeps all items reachable. -/
theorem reachable_insert {position : Nat} (reachable : Reachable ring Occupied home)
    (others : ∀ other, other ≠ position → (Occupied' other ↔ Occupied other) ∧
      home' other = home other)
    (filled : Occupied' position) (vacant : ¬ Occupied position)
    (homeBelow : home' position < ring)
    (passed : ∀ between < ring,
      distance ring (home' position) between < distance ring (home' position) position →
        Occupied between) :
    Reachable ring Occupied' home' := by
  have grows : ∀ other, Occupied other → Occupied' other := by
    intro other present
    have different : other ≠ position := fun same => vacant (same ▸ present)
    exact (others other different).1.mpr present
  intro other below present
  by_cases same : other = position
  · subst same
    exact ⟨homeBelow, fun between inRing closer => grows between (passed between inRing closer)⟩
  · rw [(others other same).2]
    obtain ⟨homed, path⟩ := reachable other below ((others other same).1.mp present)
    exact ⟨homed, fun between inRing closer => grows between (path between inRing closer)⟩

/-- The state of a backward shift. The hole still holds a copy of an item that is
gone or has moved; the scan has passed everything from the hole to `scan`. -/
structure Shifting (ring : Nat) (Occupied : Nat → Prop) (home : Nat → Nat) (hole scan : Nat) :
    Prop where
  holeBelow : hole < ring
  scanBelow : scan < ring
  filled : Occupied hole
  homed : ∀ position < ring, Occupied position → home position < ring
  path : ∀ position < ring, Occupied position → position ≠ hole → ∀ between < ring,
    distance ring (home position) between < distance ring (home position) position →
      Occupied between
  crossing : ∀ position < ring, Occupied position → position ≠ hole →
    distance ring (home position) hole < distance ring (home position) position →
      distance ring hole scan < distance ring hole position

/-- At the position to be removed nothing has been passed. -/
theorem shifting_start {hole : Nat} (reachable : Reachable ring Occupied home)
    (below : hole < ring) (filled : Occupied hole) :
    Shifting ring Occupied home hole hole where
  holeBelow := below
  scanBelow := below
  filled := filled
  homed := fun position inRing present => (reachable position inRing present).1
  path := fun position inRing present _ => (reachable position inRing present).2
  crossing := by
    intro position inRing present different _
    rw [distance_self]
    refine Nat.pos_of_ne_zero fun none => different ?_
    exact (distance_eq_zero below none).symm

/-- The scanned item may fill the hole when its home is not strictly after the
hole on the way to it. -/
def CanMove (ring : Nat) (home : Nat) (hole scan : Nat) : Prop :=
  distance ring hole scan ≤ distance ring home scan

/-- The scan passes an item whose path does not cross the hole. -/
theorem shifting_skip {hole scan : Nat} (shifting : Shifting ring Occupied home hole scan)
    (proper : advance ring scan ≠ hole)
    (stays : ¬ CanMove ring (home (advance ring scan)) hole (advance ring scan)) :
    Shifting ring Occupied home hole (advance ring scan) where
  holeBelow := shifting.holeBelow
  scanBelow := advance_lt shifting.scanBelow
  filled := shifting.filled
  homed := shifting.homed
  path := shifting.path
  crossing := by
    intro position inRing occupied different crosses
    have before := shifting.crossing position inRing occupied different crosses
    have step := distance_advance shifting.holeBelow proper
    have passed : position ≠ advance ring scan := by
      rintro rfl
      have homed := shifting.homed _ inRing occupied
      have total := distance_add homed shifting.holeBelow inRing crosses.le
      exact stays (by unfold CanMove; omega)
    have apart : distance ring hole position ≠ distance ring hole (advance ring scan) := fun same =>
      passed (distance_inj shifting.holeBelow inRing (advance_lt shifting.scanBelow) same)
    omega

/-- The scanned item is copied into the hole and its old position becomes the
hole. -/
theorem shifting_move (Occupied' : Nat → Prop) (home' : Nat → Nat) {hole scan : Nat}
    (shifting : Shifting ring Occupied home hole scan)
    (proper : advance ring scan ≠ hole) (present : Occupied (advance ring scan))
    (moves : CanMove ring (home (advance ring scan)) hole (advance ring scan))
    (same : ∀ position, Occupied' position ↔ Occupied position)
    (copied : home' hole = home (advance ring scan))
    (others : ∀ position, position ≠ hole → home' position = home position) :
    Shifting ring Occupied' home' (advance ring scan) (advance ring scan) := by
  have scanBelow : advance ring scan < ring := advance_lt shifting.scanBelow
  have homed := shifting.homed _ scanBelow present
  have reached : distance ring (home (advance ring scan)) hole
      < distance ring (home (advance ring scan)) (advance ring scan) := by
    have away := @distance_eq_zero ring hole (advance ring scan) shifting.holeBelow
    have back := distance_lt homed shifting.holeBelow
    unfold CanMove at moves
    unfold distance at *
    split_ifs at * <;> omega
  refine ⟨scanBelow, scanBelow, (same _).mpr present, ?_, ?_, ?_⟩
  · intro position inRing occupied
    by_cases atHole : position = hole
    · rw [atHole, copied]
      exact homed
    · rw [others position atHole]
      exact shifting.homed position inRing ((same position).mp occupied)
  · intro position inRing occupied _ between below closer
    refine (same between).mpr ?_
    by_cases atHole : position = hole
    · rw [atHole, copied] at closer
      exact shifting.path _ scanBelow present proper between below (closer.trans reached)
    · rw [others position atHole] at closer
      exact shifting.path position inRing ((same position).mp occupied) atHole between below closer
  · intro position inRing _ different _
    rw [distance_self]
    refine Nat.pos_of_ne_zero fun none => different ?_
    exact (distance_eq_zero scanBelow none).symm

/-- Meeting an empty position, the scan ends and the hole is emptied. -/
theorem shifting_finish (Occupied' : Nat → Prop) {hole scan : Nat}
    (shifting : Shifting ring Occupied home hole scan)
    (vacant : ¬ Occupied (advance ring scan))
    (emptied : ∀ position, Occupied' position ↔ Occupied position ∧ position ≠ hole) :
    Reachable ring Occupied' home := by
  have scanBelow : advance ring scan < ring := advance_lt shifting.scanBelow
  have proper : advance ring scan ≠ hole := fun same => vacant (same ▸ shifting.filled)
  have step := distance_advance shifting.holeBelow proper
  intro position inRing occupied
  obtain ⟨present, different⟩ := (emptied position).mp occupied
  have homed := shifting.homed position inRing present
  refine ⟨homed, fun between below closer => (emptied between).mpr
    ⟨shifting.path position inRing present different between below closer, ?_⟩⟩
  rintro rfl
  -- The path crosses the hole, hence also the empty position the scan met.
  have beyond := shifting.crossing position inRing present different closer
  have total := distance_add homed below inRing closer.le
  have notEnd : distance ring between (advance ring scan) ≠ distance ring between position := by
    intro equal
    have reached := distance_inj below scanBelow inRing equal
    exact vacant (reached ▸ present)
  have onPath : distance ring (home position) (advance ring scan)
      < distance ring (home position) position := by
    unfold distance at *
    split_ifs at * <;> omega
  exact vacant (shifting.path position inRing present different _ scanBelow onPath)

end KvCache.CyclicProbe
