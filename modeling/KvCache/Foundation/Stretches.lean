import Mathlib.Data.List.Range
import Mathlib.Tactic.Ring

/-!
# Ranges cut into stretches

A copy of a long range is issued as a list of stretches, each short enough for one
transfer. Stretches tile a range when each begins where the one before it ends. Tilings
compose, the positions of a tiling are the positions of the range in order, and rounding
every stretch up to a transfer unit changes only the last one as long as every stretch
begins on the unit.

A stretch that starts inside a page is cut at the end of the page. The cutting loop of a
copy yields a tiling whose stretches each stay inside one page.
-/

namespace KvCache.Stretches

/-- A start and a length. -/
structure Stretch where
  start : Nat
  length : Nat
deriving DecidableEq, Repr

/-- A length rounded up to a multiple of the unit. -/
def roundUp (unit length : Nat) : Nat := (length + unit - 1) / unit * unit

theorem roundUp_of_dvd {unit length : Nat} (positive : 0 < unit) (whole : unit ∣ length) :
    roundUp unit length = length := by
  obtain ⟨count, rfl⟩ := whole
  have quotient : (unit * count + unit - 1) / unit = count := by
    rw [Nat.add_sub_assoc positive, Nat.mul_add_div positive,
      Nat.div_eq_of_lt (Nat.sub_lt positive Nat.one_pos), Nat.add_zero]
  rw [roundUp, quotient, Nat.mul_comm]

theorem roundUp_add {unit start length : Nat} (positive : 0 < unit) (whole : unit ∣ start) :
    roundUp unit (start + length) = start + roundUp unit length := by
  obtain ⟨count, rfl⟩ := whole
  have moved : unit * count + length + unit - 1 = unit * count + (length + unit - 1) := by omega
  rw [roundUp, roundUp, moved, Nat.mul_add_div positive, Nat.add_mul, Nat.mul_comm count]

theorem dvd_roundUp (unit length : Nat) : unit ∣ roundUp unit length := Nat.dvd_mul_left _ _

theorem le_roundUp {unit : Nat} (positive : 0 < unit) (length : Nat) :
    length ≤ roundUp unit length := by
  have split := Nat.div_add_mod (length + unit - 1) unit
  have rest := Nat.mod_lt (length + unit - 1) positive
  rw [roundUp, Nat.mul_comm]
  omega

/-- Rounding up stops at the first multiple of the unit. -/
theorem roundUp_le {unit length bound : Nat} (positive : 0 < unit) (whole : unit ∣ bound)
    (fits : length ≤ bound) : roundUp unit length ≤ bound := by
  have monotone : roundUp unit length ≤ roundUp unit bound :=
    Nat.mul_le_mul_right unit (Nat.div_le_div_right (by omega))
  exact (roundUp_of_dvd positive whole) ▸ monotone

/-- Stretches that follow one another from the start to the stop. -/
def Tiles : Nat → List Stretch → Nat → Prop
  | start, [], stop => start = stop
  | start, stretch :: rest, stop =>
    stretch.start = start ∧ Tiles (start + stretch.length) rest stop

/-- A stretch with its length rounded up. -/
def Stretch.padded (unit : Nat) (stretch : Stretch) : Stretch :=
  ⟨stretch.start, roundUp unit stretch.length⟩

/-- The positions of a stretch. -/
def Stretch.positions (stretch : Stretch) : List Nat :=
  List.range' stretch.start stretch.length

variable {start middle stop : Nat} {left right stretches : List Stretch}

theorem Tiles.le (tiles : Tiles start stretches stop) : start ≤ stop := by
  induction stretches generalizing start with
  | nil => exact le_of_eq tiles
  | cons stretch rest inductionHypothesis =>
    exact (Nat.le_add_right _ _).trans (inductionHypothesis tiles.2)

theorem Tiles.append (before : Tiles start left middle) (after : Tiles middle right stop) :
    Tiles start (left ++ right) stop := by
  induction left generalizing start with
  | nil =>
    obtain rfl : start = middle := before
    exact after
  | cons stretch rest inductionHypothesis =>
    exact ⟨before.1, inductionHypothesis before.2⟩

/-- The positions of a tiling are those of the range, in order. -/
theorem Tiles.positions_eq (tiles : Tiles start stretches stop) :
    stretches.flatMap Stretch.positions = List.range' start (stop - start) := by
  induction stretches generalizing start with
  | nil =>
    obtain rfl : start = stop := tiles
    simp
  | cons stretch rest inductionHypothesis =>
    obtain ⟨starts, remaining⟩ := tiles
    have length : stop - start = stretch.length + (stop - (start + stretch.length)) := by
      have := remaining.le
      omega
    rw [List.flatMap_cons, inductionHypothesis remaining, length, Stretch.positions, starts,
      ← List.range'_append]
    simp

/-- Rounding the stretches of a tiling rounds its end, if every stretch begins on the unit.

Proof: a stretch that another one follows ends where that one begins, so its length is
already a multiple of the unit; only the last stretch grows. -/
theorem Tiles.padded {unit : Nat} (positive : 0 < unit) (tiles : Tiles start stretches stop)
    (aligned : unit ∣ start) (starts : ∀ stretch ∈ stretches, unit ∣ stretch.start) :
    Tiles start (stretches.map (Stretch.padded unit)) (roundUp unit stop) := by
  induction stretches generalizing start with
  | nil =>
    obtain rfl : start = stop := tiles
    exact (roundUp_of_dvd positive aligned).symm
  | cons stretch rest inductionHypothesis =>
    obtain ⟨begins, remaining⟩ := tiles
    cases rest with
    | nil =>
      obtain rfl : start + stretch.length = stop := remaining
      exact ⟨begins, (roundUp_add positive aligned).symm⟩
    | cons next others =>
      have following : unit ∣ start + stretch.length := by
        rw [← remaining.1]
        exact starts next (by simp)
      have whole : unit ∣ stretch.length := (Nat.dvd_add_right aligned).mp following
      have exact' : (stretch.padded unit).length = stretch.length := roundUp_of_dvd positive whole
      constructor
      · exact begins
      · rw [exact']
        exact inductionHypothesis remaining following
          fun other member => starts other (List.mem_cons_of_mem _ member)

/-! ## Cutting at pages -/

/-- Cut a range at the ends of the pages, with a bound on the number of cuts. -/
def cutAtPages (page : Nat) : Nat → Nat → Nat → List Stretch
  | 0, _, _ => []
  | fuel + 1, position, remaining =>
    if remaining = 0 then []
    else
      let length := min (page - position % page) remaining
      ⟨position, length⟩ :: cutAtPages page fuel (position + length) (remaining - length)

variable {page fuel position remaining : Nat}

/-- With a cut for every byte at hand, the cuts tile the range. -/
theorem cutAtPages_tiles (positive : 0 < page) (enough : remaining ≤ fuel) :
    Tiles position (cutAtPages page fuel position remaining) (position + remaining) := by
  induction fuel generalizing position remaining with
  | zero =>
    obtain rfl : remaining = 0 := Nat.le_zero.mp enough
    rfl
  | succ fuel inductionHypothesis =>
    unfold cutAtPages
    split
    · next none => exact none ▸ rfl
    · next some =>
      have inside := Nat.mod_lt position positive
      have rest : position + min (page - position % page) remaining +
          (remaining - min (page - position % page) remaining) = position + remaining := by omega
      constructor
      · rfl
      · rw [← rest]
        apply inductionHypothesis
        omega

/-- Every cut stays inside the page in which it begins. -/
theorem cutAtPages_inside (positive : 0 < page) {stretch : Stretch}
    (member : stretch ∈ cutAtPages page fuel position remaining) :
    stretch.start % page + stretch.length ≤ page := by
  induction fuel generalizing position remaining with
  | zero => simp [cutAtPages] at member
  | succ fuel inductionHypothesis =>
    unfold cutAtPages at member
    split at member
    · simp at member
    · rcases List.mem_cons.mp member with rfl | later
      · have inside := Nat.mod_lt position positive
        dsimp only
        omega
      · exact inductionHypothesis later

/-- Cuts begin on every unit that divides the page and the position.

Proof: a cut after the first begins at the end of a page, and no cut follows one that
ends with the range. -/
theorem cutAtPages_aligned {unit : Nat} (positive : 0 < page) (pages : unit ∣ page)
    (aligned : unit ∣ position) {stretch : Stretch}
    (member : stretch ∈ cutAtPages page fuel position remaining) : unit ∣ stretch.start := by
  induction fuel generalizing position remaining with
  | zero => simp [cutAtPages] at member
  | succ fuel inductionHypothesis =>
    unfold cutAtPages at member
    split at member
    · simp at member
    · rcases List.mem_cons.mp member with rfl | later
      · exact aligned
      · rcases Nat.lt_or_ge (page - position % page) remaining with cut | whole
        · apply inductionHypothesis _ later
          rw [Nat.min_eq_left cut.le]
          have inside := Nat.mod_lt position positive
          have split := Nat.div_add_mod position page
          have ends : position + (page - position % page) = page * (position / page + 1) := by
            rw [Nat.mul_add]
            omega
          rw [ends]
          exact Dvd.dvd.mul_right pages _
        · rw [Nat.min_eq_right whole, Nat.sub_self] at later
          cases fuel <;> simp [cutAtPages] at later

@[simp] theorem cutAtPages_nothing : cutAtPages page fuel position 0 = [] := by
  cases fuel <;> simp [cutAtPages]

/-- A range that begins with a page and does not exceed it is not cut. -/
theorem cutAtPages_single (begins : position % page = 0) (some : remaining ≠ 0)
    (fits : remaining ≤ page) :
    cutAtPages page remaining position remaining = [⟨position, remaining⟩] := by
  cases remaining with
  | zero => exact absurd rfl some
  | succ shorter =>
    rw [cutAtPages, if_neg some]
    simp [begins, Nat.min_eq_right fits]

/-- The stretches of a tiling lie between its ends. -/
theorem Tiles.bounds {stretch : Stretch} (tiles : Tiles start stretches stop)
    (member : stretch ∈ stretches) : start ≤ stretch.start ∧
      stretch.start + stretch.length ≤ stop := by
  induction stretches generalizing start with
  | nil => simp at member
  | cons first rest inductionHypothesis =>
    rcases List.mem_cons.mp member with rfl | later
    · exact ⟨tiles.1.ge, tiles.1 ▸ tiles.2.le⟩
    · obtain ⟨after, before⟩ := inductionHypothesis tiles.2 later
      exact ⟨(Nat.le_add_right _ _).trans after, before⟩

end KvCache.Stretches
