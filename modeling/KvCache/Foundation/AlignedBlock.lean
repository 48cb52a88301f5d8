import Mathlib.Algebra.BigOperators.Group.Finset.Basic
import Mathlib.Algebra.Order.BigOperators.Group.Finset
import Mathlib.Data.Nat.Bitwise
import Mathlib.Order.Interval.Finset.Nat
import Mathlib.Tactic.Ring

/-!
# Power-of-two aligned blocks and their tilings

A block of order `o` is `2 ^ o` consecutive units whose start is a multiple of
its size. Two such blocks are nested or apart, so a family of pairwise apart
blocks that covers an initial segment of the units is determined from the
bottom: the smallest block in any region has its sibling in that region too.

A tiling is stated over an arbitrary predicate on blocks. Which blocks are free
and which are owned, and by whom, is left to the user of this module; splitting
and merging are facts about the underlying tiling only.

The last section compares tilings without sibling blocks. Such a tiling is the
family of all maximal aligned blocks of the segment, so it does not depend on
the history that produced it.
-/

namespace KvCache.AlignedBlock

/-- `2 ^ order` consecutive units from `unit` on. -/
structure Block where
  unit : Nat
  order : Nat
deriving DecidableEq, Repr

namespace Block

/-- Number of units of the block. -/
def size (block : Block) : Nat := 2 ^ block.order

/-- One past the last unit. -/
def finish (block : Block) : Nat := block.unit + block.size

/-- The block contains the unit. -/
def Mem (block : Block) (unit : Nat) : Prop := block.unit ≤ unit ∧ unit < block.finish

/-- The start is a multiple of the size. -/
def Aligned (block : Block) : Prop := block.size ∣ block.unit

/-- The two ranges of units do not meet. -/
def Apart (left right : Block) : Prop := left.finish ≤ right.unit ∨ right.finish ≤ left.unit

/-- The range of the first lies in the range of the second. -/
def Within (inner outer : Block) : Prop := outer.unit ≤ inner.unit ∧ inner.finish ≤ outer.finish

/-- The sibling under the same parent. -/
def buddy (block : Block) : Block := ⟨block.unit ^^^ 2 ^ block.order, block.order⟩

/-- The block of the next order that contains a block and its sibling. -/
def parent (block : Block) : Block := ⟨min block.unit block.buddy.unit, block.order + 1⟩

instance (block : Block) (unit : Nat) : Decidable (block.Mem unit) :=
  inferInstanceAs (Decidable (_ ∧ _))

instance (block : Block) : Decidable block.Aligned :=
  inferInstanceAs (Decidable (_ ∣ _))

instance (left right : Block) : Decidable (left.Apart right) :=
  inferInstanceAs (Decidable (_ ∨ _))

@[simp] theorem buddy_order (block : Block) : block.buddy.order = block.order := rfl

@[simp] theorem parent_order (block : Block) : block.parent.order = block.order + 1 := rfl

theorem size_pos (block : Block) : 0 < block.size := Nat.two_pow_pos block.order

theorem finish_gt (block : Block) : block.unit < block.finish := by
  have positive := block.size_pos
  unfold finish
  omega

theorem mem_unit (block : Block) : block.Mem block.unit := ⟨Nat.le_refl _, block.finish_gt⟩

theorem apart_comm {left right : Block} : left.Apart right ↔ right.Apart left := Or.comm

theorem not_apart_self (block : Block) : ¬ block.Apart block := by
  have proper := block.finish_gt
  unfold Apart
  omega

/-- Apart is the absence of a common unit. -/
theorem apart_iff (left right : Block) :
    left.Apart right ↔ ∀ unit, left.Mem unit → ¬ right.Mem unit := by
  have leftProper := left.finish_gt
  have rightProper := right.finish_gt
  unfold Apart Mem
  constructor
  · intro separate unit inside
    omega
  · intro separate
    have atLeft := separate left.unit
    have atRight := separate right.unit
    omega

theorem not_apart_of_mem {left right : Block} {unit : Nat}
    (inLeft : left.Mem unit) (inRight : right.Mem unit) : ¬ left.Apart right := by
  intro separate
  exact (apart_iff left right).mp separate unit inLeft inRight

theorem Within.mem {inner outer : Block} (within : inner.Within outer) {unit : Nat}
    (inside : inner.Mem unit) : outer.Mem unit := by
  unfold Within at within
  unfold Mem at *
  omega

theorem Within.trans {first second third : Block} (lower : first.Within second)
    (upper : second.Within third) : first.Within third := by
  unfold Within at *
  omega

/-- A block is determined by its range. -/
theorem Within.antisymm {left right : Block} (forth : left.Within right)
    (back : right.Within left) : left = right := by
  unfold Within finish size at *
  have starts : left.unit = right.unit := Nat.le_antisymm back.1 forth.1
  have orders : left.order = right.order :=
    Nat.pow_right_injective (Nat.le_refl 2) (show 2 ^ left.order = 2 ^ right.order by omega)
  cases left
  cases right
  simp_all only

theorem Within.not_apart {inner outer : Block} (within : inner.Within outer) :
    ¬ inner.Apart outer :=
  not_apart_of_mem inner.mem_unit (within.mem inner.mem_unit)

theorem Within.apart {inner outer other : Block} (within : inner.Within outer)
    (separate : outer.Apart other) : inner.Apart other := by
  unfold Within at within
  unfold Apart at *
  omega

/-- Of two aligned blocks that meet, the one of the smaller order lies within
the other. Both starts are multiples of the smaller size, so the comparison is
one of quotients. -/
theorem within_of_meet {small large : Block} (smallAligned : small.Aligned)
    (largeAligned : large.Aligned) (ordered : small.order ≤ large.order)
    (meet : ¬ small.Apart large) : small.Within large := by
  obtain ⟨p, smallStart⟩ := smallAligned
  obtain ⟨q, largeStart⟩ := largeAligned
  obtain ⟨extra, orders⟩ := Nat.exists_eq_add_of_le ordered
  have sizes : large.size = small.size * 2 ^ extra := by
    simp only [size, orders, Nat.pow_add]
  have positive := small.size_pos
  unfold Apart finish at meet
  unfold Within finish
  rw [largeStart, smallStart, sizes] at meet ⊢
  generalize small.size = s at *
  generalize 2 ^ extra = k at *
  have lower : k * q < p + 1 := by
    apply Nat.lt_of_mul_lt_mul_left (a := s)
    calc s * (k * q) = s * k * q := by ring
      _ < s * p + s := by omega
      _ = s * (p + 1) := by ring
  have upper : p < k * q + k := by
    apply Nat.lt_of_mul_lt_mul_left (a := s)
    calc s * p < s * k * q + s * k := by omega
      _ = s * (k * q + k) := by ring
  constructor
  · calc s * k * q = s * (k * q) := by ring
      _ ≤ s * p := Nat.mul_le_mul_left s (by omega)
  · calc s * p + s = s * (p + 1) := by ring
      _ ≤ s * (k * q + k) := Nat.mul_le_mul_left s (by omega)
      _ = s * k * q + s * k := by ring

/-- An aligned block of the larger order contains every aligned block of a
smaller order that starts in it. -/
theorem within_of_mem {small large : Block} (smallAligned : small.Aligned)
    (largeAligned : large.Aligned) (ordered : small.order ≤ large.order)
    (inside : large.Mem small.unit) : small.Within large :=
  within_of_meet smallAligned largeAligned ordered (not_apart_of_mem small.mem_unit inside)

/-- Aligned blocks of one order that meet are equal. -/
theorem eq_of_meet {left right : Block} (leftAligned : left.Aligned)
    (rightAligned : right.Aligned) (same : left.order = right.order)
    (meet : ¬ left.Apart right) : left = right := by
  have forth := within_of_meet leftAligned rightAligned same.le meet
  have back := within_of_meet rightAligned leftAligned same.ge (fun separate =>
    meet (apart_comm.mp separate))
  exact forth.antisymm back

/-- The start of the sibling: one size up from an even position, one size down
from an odd one. -/
theorem buddy_unit {block : Block} (aligned : block.Aligned) :
    (block.unit / block.size % 2 = 0 ∧ block.buddy.unit = block.unit + block.size) ∨
    (block.unit / block.size % 2 = 1 ∧ block.unit = block.buddy.unit + block.size) := by
  obtain ⟨q, start⟩ := aligned
  have positive := block.size_pos
  have quotient : block.unit / block.size = q := by
    rw [start, Nat.mul_div_cancel_left q positive]
  have shifted : block.buddy.unit = block.size * (q ^^^ 1) := by
    have left : block.unit = q <<< block.order := by
      rw [start, Nat.shiftLeft_eq, Nat.mul_comm]
      rfl
    have right : 2 ^ block.order = 1 <<< block.order := by
      rw [Nat.shiftLeft_eq, Nat.one_mul]
    calc block.buddy.unit = q <<< block.order ^^^ 1 <<< block.order := by
          simp only [buddy]
          rw [← left, ← right]
      _ = (q ^^^ 1) <<< block.order := Nat.shiftLeft_xor_distrib.symm
      _ = block.size * (q ^^^ 1) := by rw [Nat.shiftLeft_eq, Nat.mul_comm]; rfl
  rw [quotient, shifted, start]
  rcases Nat.even_or_odd q with even | odd
  · left
    refine ⟨Nat.even_iff.mp even, ?_⟩
    rw [Nat.xor_one_of_even even]
    ring
  · right
    refine ⟨Nat.odd_iff.mp odd, ?_⟩
    have proper : q % 2 = 1 := Nat.odd_iff.mp odd
    rw [Nat.xor_one_of_odd odd]
    calc block.size * q = block.size * (q - 1 + 1) := by rw [Nat.sub_add_cancel (by omega)]
      _ = block.size * (q - 1) + block.size := by ring

/-- The sibling is aligned and apart; the parent is aligned and is exactly the
two halves. -/
theorem buddy_spec {block : Block} (aligned : block.Aligned) :
    block.buddy.Aligned ∧ block.Apart block.buddy ∧ block.parent.Aligned ∧
    block.Within block.parent ∧ block.buddy.Within block.parent ∧
    (∀ unit, block.parent.Mem unit → block.Mem unit ∨ block.buddy.Mem unit) := by
  have sizes : block.parent.size = 2 * block.size := by
    simp only [size, parent, Nat.pow_succ]
    ring
  have same : block.buddy.size = block.size := rfl
  have start : block.parent.unit = min block.unit block.buddy.unit := rfl
  have positive := block.size_pos
  have division := Nat.div_add_mod (block.unit / block.size) 2
  have whole := Nat.mul_div_cancel' aligned
  rcases buddy_unit aligned with ⟨even, above⟩ | ⟨odd, below⟩
  · have parentUnit : block.parent.unit = block.unit := by omega
    refine ⟨?_, ?_, ?_, ?_, ?_, ?_⟩
    · rw [Aligned, above, same]
      exact (Nat.dvd_add_right aligned).mpr (Nat.dvd_refl _)
    · unfold Apart finish
      omega
    · rw [Aligned, parentUnit, sizes]
      refine ⟨block.unit / block.size / 2, ?_⟩
      calc block.unit = block.size * (block.unit / block.size) := whole.symm
        _ = block.size * (2 * (block.unit / block.size / 2)) := by congr 1; omega
        _ = 2 * block.size * (block.unit / block.size / 2) := by ring
    · unfold Within finish
      omega
    · unfold Within finish
      omega
    · unfold Mem finish
      intro unit inside
      omega
  · have parentUnit : block.parent.unit = block.buddy.unit := by omega
    have halves : block.size ∣ block.buddy.unit := by
      have total : block.size ∣ block.buddy.unit + block.size := below ▸ aligned
      exact (Nat.dvd_add_left (Nat.dvd_refl _)).mp total
    refine ⟨halves, ?_, ?_, ?_, ?_, ?_⟩
    · unfold Apart finish
      omega
    · rw [Aligned, parentUnit, sizes]
      refine ⟨block.unit / block.size / 2, ?_⟩
      have step : block.size * (block.unit / block.size)
          = 2 * block.size * (block.unit / block.size / 2) + block.size := by
        calc block.size * (block.unit / block.size)
            = block.size * (2 * (block.unit / block.size / 2) + 1) := by congr 1; omega
          _ = 2 * block.size * (block.unit / block.size / 2) + block.size := by ring
      omega
    · unfold Within finish
      omega
    · unfold Within finish
      omega
    · unfold Mem finish
      intro unit inside
      omega

/-- An aligned block of a larger order that contains a block contains its
parent. -/
theorem parent_within {block outer : Block} (aligned : block.Aligned)
    (outerAligned : outer.Aligned) (ordered : block.order < outer.order)
    (within : block.Within outer) : block.parent.Within outer := by
  obtain ⟨_, _, parentAligned, lower, _, _⟩ := buddy_spec aligned
  refine within_of_meet parentAligned outerAligned ordered ?_
  exact not_apart_of_mem (lower.mem block.mem_unit) (within.mem block.mem_unit)

/-- Splitting an aligned block: the lower half starts where the block does, and
the upper half is its sibling. -/
theorem halves {unit order : Nat} (aligned : (Block.mk unit (order + 1)).Aligned) :
    (Block.mk unit order).Aligned ∧
    (Block.mk unit order).buddy = ⟨unit + 2 ^ order, order⟩ ∧
    (Block.mk unit order).parent = ⟨unit, order + 1⟩ := by
  obtain ⟨q, start⟩ := aligned
  have doubled : unit = 2 ^ order * (2 * q) := by
    calc unit = 2 ^ (order + 1) * q := start
      _ = 2 ^ order * (2 * q) := by ring
  have lower : (Block.mk unit order).Aligned := ⟨2 * q, doubled⟩
  have positive : 0 < 2 ^ order := Nat.two_pow_pos order
  have position : unit / 2 ^ order = 2 * q := by
    rw [doubled, Nat.mul_div_cancel_left _ positive]
  rcases buddy_unit lower with ⟨_, above⟩ | ⟨odd, _⟩
  · refine ⟨lower, ?_, ?_⟩
    · simpa only [buddy, size, mk.injEq, and_true] using above
    · simp only [parent, above, size, mk.injEq, and_true]
      omega
  · simp only [size] at odd
    omega

end Block

open Block

/-! ## Tilings -/

/-- The pieces are aligned, pairwise apart and cover exactly the units below
`total`. -/
structure Tiles (total : Nat) (Piece : Block → Prop) : Prop where
  aligned : ∀ block, Piece block → block.Aligned
  inside : ∀ block, Piece block → block.finish ≤ total
  apart : ∀ left right, Piece left → Piece right → left ≠ right → left.Apart right
  cover : ∀ unit, unit < total → ∃ block, Piece block ∧ block.Mem unit

namespace Tiles

variable {total : Nat} {Piece Other : Block → Prop}

theorem congr (tiles : Tiles total Piece) (same : ∀ block, Other block ↔ Piece block) :
    Tiles total Other := by
  have equal : Other = Piece := funext fun block => propext (same block)
  exact equal ▸ tiles

/-- Pieces that share a unit are equal. -/
theorem eq_of_mem (tiles : Tiles total Piece) {left right : Block} {unit : Nat}
    (leftPiece : Piece left) (rightPiece : Piece right) (inLeft : left.Mem unit)
    (inRight : right.Mem unit) : left = right := by
  by_contra different
  exact not_apart_of_mem inLeft inRight (tiles.apart left right leftPiece rightPiece different)

/-- Pieces with one start are equal. -/
theorem eq_of_unit (tiles : Tiles total Piece) {left right : Block} (leftPiece : Piece left)
    (rightPiece : Piece right) (same : left.unit = right.unit) : left = right :=
  tiles.eq_of_mem leftPiece rightPiece left.mem_unit (same ▸ right.mem_unit)

/-- A piece within another piece is that piece. -/
theorem eq_of_within (tiles : Tiles total Piece) {left right : Block} (leftPiece : Piece left)
    (rightPiece : Piece right) (within : left.Within right) : left = right :=
  tiles.eq_of_mem leftPiece rightPiece left.mem_unit (within.mem left.mem_unit)

/-- A piece is replaced by its two halves. -/
theorem split (tiles : Tiles total Piece) {unit order : Nat} (piece : Piece ⟨unit, order + 1⟩) :
    Tiles total (fun block => (Piece block ∧ block ≠ ⟨unit, order + 1⟩) ∨
      block = ⟨unit, order⟩ ∨ block = ⟨unit + 2 ^ order, order⟩) := by
  obtain ⟨lower, upper, whole⟩ := halves (tiles.aligned _ piece)
  obtain ⟨upperAligned, halvesApart, _, lowerWithin, upperWithin, parts⟩ := buddy_spec lower
  rw [upper] at upperAligned halvesApart upperWithin parts
  rw [whole] at lowerWithin upperWithin parts
  have bound := tiles.inside _ piece
  have elsewhere : ∀ block, Piece block → block ≠ ⟨unit, order + 1⟩ →
      (Block.mk unit order).Apart block ∧ (Block.mk (unit + 2 ^ order) order).Apart block := by
    intro block member different
    have separate := tiles.apart _ _ piece member (Ne.symm different)
    exact ⟨lowerWithin.apart separate, upperWithin.apart separate⟩
  refine ⟨?_, ?_, ?_, ?_⟩
  · rintro block (⟨member, _⟩ | rfl | rfl)
    · exact tiles.aligned block member
    · exact lower
    · exact upperAligned
  · rintro block (⟨member, _⟩ | rfl | rfl)
    · exact tiles.inside block member
    · exact lowerWithin.2.trans bound
    · exact upperWithin.2.trans bound
  · rintro left right (⟨leftMember, leftOld⟩ | rfl | rfl) (⟨rightMember, rightOld⟩ | rfl | rfl)
      different
    · exact tiles.apart left right leftMember rightMember different
    · exact apart_comm.mp (elsewhere left leftMember leftOld).1
    · exact apart_comm.mp (elsewhere left leftMember leftOld).2
    · exact (elsewhere right rightMember rightOld).1
    · exact absurd rfl different
    · exact halvesApart
    · exact (elsewhere right rightMember rightOld).2
    · exact apart_comm.mp halvesApart
    · exact absurd rfl different
  · intro position below
    obtain ⟨block, member, contains⟩ := tiles.cover position below
    by_cases old : block = ⟨unit, order + 1⟩
    · subst old
      rcases parts position contains with first | second
      · exact ⟨_, Or.inr (Or.inl rfl), first⟩
      · exact ⟨_, Or.inr (Or.inr rfl), second⟩
    · exact ⟨block, Or.inl ⟨member, old⟩, contains⟩

/-- A piece and its sibling are replaced by their parent. -/
theorem merge (tiles : Tiles total Piece) {block : Block} (piece : Piece block)
    (sibling : Piece block.buddy) :
    Tiles total (fun other => (Piece other ∧ other ≠ block ∧ other ≠ block.buddy) ∨
      other = block.parent) := by
  obtain ⟨_, _, parentAligned, within, buddyWithin, parts⟩ := buddy_spec (tiles.aligned _ piece)
  have elsewhere : ∀ other, Piece other → other ≠ block → other ≠ block.buddy →
      block.parent.Apart other := by
    intro other member notBlock notBuddy
    refine (apart_iff _ _).mpr fun unit inParent inOther => ?_
    rcases parts unit inParent with inBlock | inBuddy
    · exact notBlock (tiles.eq_of_mem member piece inOther inBlock)
    · exact notBuddy (tiles.eq_of_mem member sibling inOther inBuddy)
  have bound : block.parent.finish ≤ total := by
    have first := tiles.inside _ piece
    have second := tiles.inside _ sibling
    have proper := block.parent.finish_gt
    have last : block.parent.Mem (block.parent.finish - 1) := by
      unfold Mem
      omega
    rcases parts _ last with inBlock | inBuddy
    · have upper := inBlock.2
      omega
    · have upper := inBuddy.2
      omega
  refine ⟨?_, ?_, ?_, ?_⟩
  · rintro other (⟨member, _⟩ | rfl)
    · exact tiles.aligned other member
    · exact parentAligned
  · rintro other (⟨member, _⟩ | rfl)
    · exact tiles.inside other member
    · exact bound
  · rintro left right (⟨leftMember, leftBlock, leftBuddy⟩ | rfl)
      (⟨rightMember, rightBlock, rightBuddy⟩ | rfl) different
    · exact tiles.apart left right leftMember rightMember different
    · exact apart_comm.mp (elsewhere left leftMember leftBlock leftBuddy)
    · exact elsewhere right rightMember rightBlock rightBuddy
    · exact absurd rfl different
  · intro position below
    obtain ⟨other, member, contains⟩ := tiles.cover position below
    by_cases isBlock : other = block
    · exact ⟨_, Or.inr rfl, within.mem (isBlock ▸ contains)⟩
    · by_cases isBuddy : other = block.buddy
      · exact ⟨_, Or.inr rfl, buddyWithin.mem (isBuddy ▸ contains)⟩
      · exact ⟨other, Or.inl ⟨member, isBlock, isBuddy⟩, contains⟩

/-- The piece that covers the start of a piece's sibling has at most the order
of that piece, and then starts there itself. -/
theorem sibling_piece (tiles : Tiles total Piece) {block : Block} (piece : Piece block)
    (inRange : block.buddy.unit < total) :
    ∃ other, Piece other ∧ other.unit = block.buddy.unit ∧ other.order ≤ block.order := by
  have aligned := tiles.aligned _ piece
  obtain ⟨buddyAligned, _, parentAligned, within, buddyWithin, _⟩ := buddy_spec aligned
  obtain ⟨other, member, contains⟩ := tiles.cover _ inRange
  have otherAligned := tiles.aligned _ member
  by_cases ordered : other.order ≤ block.order
  · refine ⟨other, member, ?_, ordered⟩
    have meet : ¬ other.Apart block.buddy := not_apart_of_mem contains block.buddy.mem_unit
    have within := within_of_meet otherAligned buddyAligned ordered meet
    exact Nat.le_antisymm contains.1 within.1
  · exfalso
    have meet : ¬ block.parent.Apart other :=
      not_apart_of_mem (buddyWithin.mem block.buddy.mem_unit) contains
    have swallowed := within.trans
      (within_of_meet parentAligned otherAligned (Nat.lt_of_not_le ordered) meet)
    have same := tiles.eq_of_within piece member swallowed
    exact ordered (same ▸ Nat.le_refl _)

/-- In a region without owned pieces, some unowned piece is at least as large
as the region. Otherwise the smallest piece that meets the region has its
sibling there as well, and the two would have been merged.

Proof: the smallest piece lies within the region and so does its parent. The
piece at the start of its sibling meets the region too, so it is not smaller;
it is therefore the sibling, against the assumption on `Free`. -/
theorem fits (tiles : Tiles total Piece) (Free : Block → Prop) {limit : Nat} {region : Block}
    (regionAligned : region.Aligned) (inside : region.finish ≤ total)
    (ordered : region.order ≤ limit)
    (free : ∀ block, Piece block → ¬ block.Apart region → Free block)
    (coalesced : ∀ block, block.order < limit → Free block → ¬ Free block.buddy) :
    ∃ block, Piece block ∧ Free block ∧ region.Within block := by
  classical
  by_contra missing
  have small : ∀ block, Piece block → ¬ block.Apart region →
      block.order < region.order ∧ block.Within region := by
    intro block piece meet
    have less : block.order < region.order := by
      by_contra large
      refine missing ⟨block, piece, free block piece meet, ?_⟩
      exact within_of_meet regionAligned (tiles.aligned _ piece) (Nat.le_of_not_lt large)
        (fun separate => meet (apart_comm.mp separate))
    exact ⟨less, within_of_meet (tiles.aligned _ piece) regionAligned less.le meet⟩
  have someOrder : ∃ order block, Piece block ∧ ¬ block.Apart region ∧ block.order = order := by
    have proper := region.finish_gt
    obtain ⟨block, piece, contains⟩ := tiles.cover region.unit (by omega)
    exact ⟨block.order, block, piece, not_apart_of_mem contains region.mem_unit, rfl⟩
  obtain ⟨block, piece, meet, least⟩ := Nat.find_spec someOrder
  obtain ⟨less, within⟩ := small block piece meet
  have aligned := tiles.aligned _ piece
  obtain ⟨buddyAligned, _, _, _, buddyWithin, _⟩ := buddy_spec aligned
  have buddyInside : block.buddy.Within region :=
    buddyWithin.trans (parent_within aligned regionAligned less within)
  have buddyStart : region.Mem block.buddy.unit := buddyInside.mem block.buddy.mem_unit
  have buddyBelow : block.buddy.unit < total := Nat.lt_of_lt_of_le buddyStart.2 inside
  obtain ⟨other, member, start, bounded⟩ := tiles.sibling_piece piece buddyBelow
  have otherMeet : ¬ other.Apart region :=
    not_apart_of_mem (start ▸ other.mem_unit) buddyStart
  have notSmaller : block.order ≤ other.order := by
    rw [least]
    exact Nat.find_min' someOrder ⟨other, member, otherMeet, rfl⟩
  have sibling : other = block.buddy := by
    cases other
    simp only [buddy, mk.injEq] at *
    omega
  exact coalesced block (Nat.lt_of_lt_of_le less ordered) (free block piece meet)
    (sibling ▸ free other member otherMeet)

/-- Two tilings of one segment by free blocks, neither with two siblings, are
the same set of blocks. -/
theorem coalesced_unique {First Second : Block → Prop} (limit : Nat)
    (first : Tiles total First) (second : Tiles total Second)
    (firstBound : ∀ block, First block → block.order ≤ limit)
    (secondBound : ∀ block, Second block → block.order ≤ limit)
    (firstCoalesced : ∀ block, block.order < limit → First block → ¬ First block.buddy)
    (secondCoalesced : ∀ block, block.order < limit → Second block → ¬ Second block.buddy)
    (block : Block) : First block ↔ Second block := by
  have transfer : ∀ {First Second : Block → Prop}, Tiles total First → Tiles total Second →
      (∀ block, First block → block.order ≤ limit) →
      (∀ block, Second block → block.order ≤ limit) →
      (∀ block, block.order < limit → First block → ¬ First block.buddy) →
      (∀ block, block.order < limit → Second block → ¬ Second block.buddy) →
      First block → Second block := by
    intro First Second first second firstBound secondBound firstCoalesced secondCoalesced member
    obtain ⟨outer, outerMember, _, within⟩ := second.fits _ (first.aligned _ member)
      (first.inside _ member) (firstBound _ member) (fun _ piece _ => piece) secondCoalesced
    obtain ⟨back, backMember, _, backWithin⟩ := first.fits _ (second.aligned _ outerMember)
      (second.inside _ outerMember) (secondBound _ outerMember) (fun _ piece _ => piece)
      firstCoalesced
    have same : block = back :=
      first.eq_of_within member backMember (within.trans backWithin)
    exact (within.antisymm (same ▸ backWithin)) ▸ outerMember
  exact ⟨transfer first second firstBound secondBound firstCoalesced secondCoalesced,
    transfer second first secondBound firstBound secondCoalesced firstCoalesced⟩

end Tiles

/-! ## Total size -/

/-- Pairwise apart blocks below a bound have at most that many units together. -/
theorem sum_size_le {ι : Type*} [DecidableEq ι] (owners : Finset ι) (block : ι → Block)
    (total : Nat) (inside : ∀ owner ∈ owners, (block owner).finish ≤ total)
    (apart : ∀ left ∈ owners, ∀ right ∈ owners, left ≠ right →
      (block left).Apart (block right)) :
    ∑ owner ∈ owners, (block owner).size ≤ total := by
  have disjoint : (owners : Set ι).PairwiseDisjoint
      (fun owner => Finset.Ico (block owner).unit (block owner).finish) := by
    intro left leftMember right rightMember different
    refine Finset.disjoint_left.mpr fun unit inLeft inRight => ?_
    rw [Finset.mem_Ico] at inLeft inRight
    exact not_apart_of_mem inLeft inRight (apart left leftMember right rightMember different)
  have union : owners.biUnion (fun owner => Finset.Ico (block owner).unit (block owner).finish)
      ⊆ Finset.range total := by
    intro unit member
    obtain ⟨owner, present, contains⟩ := Finset.mem_biUnion.mp member
    rw [Finset.mem_Ico] at contains
    exact Finset.mem_range.mpr (Nat.lt_of_lt_of_le contains.2 (inside owner present))
  calc ∑ owner ∈ owners, (block owner).size
      = ∑ owner ∈ owners, (Finset.Ico (block owner).unit (block owner).finish).card := by
        refine Finset.sum_congr rfl fun owner _ => ?_
        simp only [Nat.card_Ico, finish, Nat.add_sub_cancel_left]
    _ = (owners.biUnion
          (fun owner => Finset.Ico (block owner).unit (block owner).finish)).card :=
        (Finset.card_biUnion disjoint).symm
    _ ≤ (Finset.range total).card := Finset.card_le_card union
    _ = total := Finset.card_range total

end KvCache.AlignedBlock
