import KvCache.Directory.HashIndex

/-!
# Correctness of the hash index

The index invariant ties the buckets to a partial assignment of keys to slots.
Insertion and deletion carry it from one assignment to the next, and under it a
lookup finds a slot exactly when that slot holds the key. Hash collisions, equal
hashes and clusters that wrap round the end of the table need no separate
treatment: probing works with distances on the ring.
-/

namespace KvCache.HashIndex

open CyclicProbe Function Layout

variable {maxKeys numBuckets bits : Nat} {buckets : Nat → Bucket} {keyAt : Nat → Option Key}

/-- Revalidation of a candidate slot against the assignment. -/
def holdsKey (keyAt : Nat → Option Key) (key : Key) (slot : Nat) : Bool :=
  decide (keyAt slot = some key)

/-- The buckets at cold start: all empty, whatever their hash words hold. -/
def coldBuckets : Nat → Bucket := fun _ => ⟨0, .empty⟩

/-- The empty index represents the empty assignment. -/
theorem coldBuckets_inv (maxKeys numBuckets : Nat) :
    IndexInv maxKeys numBuckets coldBuckets (fun _ => none) where
  bounded := fun _ _ holds => nomatch holds
  sound := fun _ _ _ content => nomatch content
  complete := fun _ _ holds => nomatch holds
  unique := fun _ _ _ _ _ content => nomatch content
  clean := fun _ _ content => nomatch content
  reachable := fun _ _ occupied => absurd rfl occupied

namespace IndexInv

/-- Lookup finds the slot that holds the key, and nothing else. -/
theorem lookup_iff (inv : IndexInv maxKeys numBuckets buckets keyAt)
    (power : numBuckets = 2 ^ bits)
    (distinct : ∀ left right key, keyAt left = some key → keyAt right = some key → left = right)
    (key : Key) (slot : Nat) :
    hashmapLookup numBuckets (fnv1aHash key) (holdsKey keyAt key) buckets = some slot ↔
      keyAt slot = some key := by
  have homeBelow := homeBucket_lt power (fnv1aHash key)
  obtain ⟨hit, miss⟩ := lookupFrom_spec buckets (fnv1aHash key)
    (holdsKey keyAt key) power homeBelow numBuckets
    (homeBucket numBuckets (fnv1aHash key)) 0 (by omega)
    (fun _ => ⟨homeBelow, distance_self _⟩)
    (fun _ _ closer => absurd closer (Nat.not_lt_zero _))
  constructor
  · intro found
    obtain ⟨_, _, candidate⟩ := hit slot found
    simpa [holdsKey] using candidate.2.2
  · intro holds
    obtain ⟨index, below, content⟩ := inv.complete slot key holds
    obtain ⟨other, held, hash⟩ := inv.sound index below slot content
    obtain rfl := Option.some.inj (holds.symm.trans held)
    have homed : homeOf numBuckets buckets index = homeBucket numBuckets (fnv1aHash key) := by
      rw [homeOf, hash]
    have path := (inv.reachable index below (fun none => nomatch content.symm.trans none)).2
    rw [homed] at path
    have candidate : Matches (fnv1aHash key) (holdsKey keyAt key) (buckets index) slot :=
      ⟨content, hash, by simp [holdsKey, holds]⟩
    cases result : hashmapLookup numBuckets (fnv1aHash key) (holdsKey keyAt key) buckets with
    | none => exact absurd candidate (miss result index below path slot)
    | some found =>
      obtain ⟨_, _, accepted⟩ := hit found result
      have same : keyAt found = some key := by simpa [holdsKey] using accepted.2.2
      rw [distinct found slot key same holds]

/-- A miss means that no slot holds the key. -/
theorem lookup_none_iff (inv : IndexInv maxKeys numBuckets buckets keyAt)
    (power : numBuckets = 2 ^ bits)
    (distinct : ∀ left right key, keyAt left = some key → keyAt right = some key → left = right)
    (key : Key) :
    hashmapLookup numBuckets (fnv1aHash key) (holdsKey keyAt key) buckets = none ↔
      ∀ slot, keyAt slot ≠ some key := by
  rw [Option.eq_none_iff_forall_ne_some]
  exact forall_congr' fun slot => not_congr (inv.lookup_iff power distinct key slot)

/-- Insertion finds an empty bucket and fills it. -/
theorem insert_spec (inv : IndexInv maxKeys numBuckets buckets keyAt)
    (power : numBuckets = 2 ^ bits) (load : 2 * maxKeys ≤ numBuckets) (proper : 2 ≤ numBuckets)
    (keyHash slot : Nat) :
    ∃ filled < numBuckets, ¬ Occupied buckets filled ∧
      (∀ other < numBuckets, distance numBuckets (homeBucket numBuckets keyHash) other <
        distance numBuckets (homeBucket numBuckets keyHash) filled → Occupied buckets other) ∧
      hashmapInsert numBuckets keyHash slot buckets =
        update buckets filled ⟨keyHash, .slot slot⟩ := by
  obtain ⟨vacant, vacantBelow, empty⟩ := inv.exists_empty load proper
  have homeBelow := homeBucket_lt power keyHash
  exact insertFrom_spec power homeBelow vacantBelow empty inv.clean numBuckets _ 0 (by omega)
    (fun _ => ⟨homeBelow, distance_self _⟩)
    (fun _ _ closer => absurd closer (Nat.not_lt_zero _))

/-- Insertion under the hash of a key adds the key to the assignment. -/
theorem insert (inv : IndexInv maxKeys numBuckets buckets keyAt)
    (power : numBuckets = 2 ^ bits) (load : 2 * maxKeys ≤ numBuckets) (proper : 2 ≤ numBuckets)
    {slot : Nat} (inRange : slot < maxKeys) (unused : keyAt slot = none) (key : Key) :
    IndexInv maxKeys numBuckets (hashmapInsert numBuckets (fnv1aHash key) slot buckets)
      (update keyAt slot (some key)) := by
  obtain ⟨filled, filledBelow, vacant, path, result⟩ :=
    inv.insert_spec power load proper (fnv1aHash key) slot
  have homeBelow := homeBucket_lt power (fnv1aHash key)
  rw [result]
  have unnamed : ∀ index < numBuckets, (buckets index).dirSlot ≠ .slot slot := by
    intro index below content
    obtain ⟨other, holds, _⟩ := inv.sound index below slot content
    exact nomatch unused.symm.trans holds
  have notFilled : ∀ index, Occupied buckets index → index ≠ filled := by
    rintro index occupied rfl
    exact vacant occupied
  refine ⟨?_, ?_, ?_, ?_, ?_, ?_⟩
  · intro other otherKey holds
    by_cases same : other = slot
    · exact same ▸ inRange
    · rw [update_of_ne same] at holds
      exact inv.bounded other otherKey holds
  · intro index below other content
    by_cases same : index = filled
    · subst same
      simp only [update_self, BucketSlot.slot.injEq] at content
      subst content
      exact ⟨key, update_self .., by rw [update_self]⟩
    · rw [update_of_ne same] at content ⊢
      obtain ⟨otherKey, holds, hash⟩ := inv.sound index below other content
      have different : other ≠ slot := by
        rintro rfl
        exact unnamed index below content
      exact ⟨otherKey, by rw [update_of_ne different, holds], hash⟩
  · intro other otherKey holds
    by_cases same : other = slot
    · subst same
      exact ⟨filled, filledBelow, by rw [update_self]⟩
    · rw [update_of_ne same] at holds
      obtain ⟨index, below, content⟩ := inv.complete other otherKey holds
      refine ⟨index, below, ?_⟩
      rw [update_of_ne (notFilled index fun none => nomatch content.symm.trans none), content]
  · intro left leftBelow right rightBelow other leftContent rightContent
    by_cases leftSame : left = filled <;> by_cases rightSame : right = filled
    · rw [leftSame, rightSame]
    · subst leftSame
      simp only [update_self, BucketSlot.slot.injEq] at leftContent
      rw [update_of_ne rightSame, ← leftContent] at rightContent
      exact absurd rightContent (unnamed right rightBelow)
    · subst rightSame
      simp only [update_self, BucketSlot.slot.injEq] at rightContent
      rw [update_of_ne leftSame, ← rightContent] at leftContent
      exact absurd leftContent (unnamed left leftBelow)
    · rw [update_of_ne leftSame] at leftContent
      rw [update_of_ne rightSame] at rightContent
      exact inv.unique left leftBelow right rightBelow other leftContent rightContent
  · intro index below
    by_cases same : index = filled
    · subst same
      simp
    · rw [update_of_ne same]
      exact inv.clean index below
  · have filledHome : homeOf numBuckets (update buckets filled ⟨fnv1aHash key, .slot slot⟩) filled
        = homeBucket numBuckets (fnv1aHash key) := by
      rw [homeOf, update_self]
    refine reachable_insert inv.reachable ?_ ?_ vacant (filledHome ▸ homeBelow) ?_
    · intro other different
      unfold Occupied homeOf
      rw [update_of_ne different]
      exact ⟨Iff.rfl, rfl⟩
    · simp [Occupied]
    · rw [filledHome]
      exact path

end IndexInv

/-! ## Deletion -/

/-- The buckets during a backward shift, apart from the hole, hold the other
slots. -/
structure ShiftInv (numBuckets : Nat) (buckets : Nat → Bucket) (keyAt : Nat → Option Key)
    (hole scan : Nat) : Prop where
  shifting : Shifting numBuckets (Occupied buckets) (homeOf numBuckets buckets) hole scan
  sound : ∀ index < numBuckets, index ≠ hole → ∀ slot, (buckets index).dirSlot = .slot slot →
    ∃ key, keyAt slot = some key ∧ (buckets index).keyHash = fnv1aHash key
  complete : ∀ slot key, keyAt slot = some key →
    ∃ index < numBuckets, index ≠ hole ∧ (buckets index).dirSlot = .slot slot
  unique : ∀ left < numBuckets, left ≠ hole → ∀ right < numBuckets, right ≠ hole → ∀ slot,
    (buckets left).dirSlot = .slot slot → (buckets right).dirSlot = .slot slot → left = right
  clean : ∀ index < numBuckets, (buckets index).dirSlot ≠ .tombstone

/-- The scanned bucket moves into the hole. -/
theorem ShiftInv.move {hole scan : Nat} (inv : ShiftInv numBuckets buckets keyAt hole scan)
    (proper : advance numBuckets scan ≠ hole)
    (present : Occupied buckets (advance numBuckets scan))
    (moves : CanMove numBuckets (homeOf numBuckets buckets (advance numBuckets scan)) hole
      (advance numBuckets scan)) :
    ShiftInv numBuckets (update buckets hole (buckets (advance numBuckets scan))) keyAt
      (advance numBuckets scan) (advance numBuckets scan) := by
  have scanBelow := advance_lt inv.shifting.scanBelow
  have holeBelow := inv.shifting.holeBelow
  generalize next : advance numBuckets scan = position at *
  have same : ∀ index, Occupied (update buckets hole (buckets position)) index ↔
      Occupied buckets index := by
    intro index
    by_cases atHole : index = hole
    · subst atHole
      simp only [Occupied, update_self]
      exact ⟨fun _ => inv.shifting.filled, fun _ => present⟩
    · simp only [Occupied, update_of_ne atHole]
  refine ⟨?_, ?_, ?_, ?_, ?_⟩
  · have moved := shifting_move (Occupied (update buckets hole (buckets position)))
      (homeOf numBuckets (update buckets hole (buckets position)))
      inv.shifting (next ▸ proper) (next ▸ present) (next ▸ moves) same
      (by rw [next, homeOf, homeOf, update_self])
      (fun index different => by simp only [homeOf, update_of_ne different])
    exact next ▸ moved
  · intro index below different slot content
    by_cases atHole : index = hole
    · subst atHole
      rw [update_self] at content ⊢
      exact inv.sound position scanBelow proper slot content
    · rw [update_of_ne atHole] at content ⊢
      exact inv.sound index below atHole slot content
  · intro slot key holds
    obtain ⟨index, below, notHole, content⟩ := inv.complete slot key holds
    by_cases moved : index = position
    · refine ⟨hole, holeBelow, Ne.symm proper, ?_⟩
      rw [update_self, ← moved, content]
    · exact ⟨index, below, moved, by rw [update_of_ne notHole, content]⟩
  · intro left leftBelow leftElse right rightBelow rightElse slot leftContent rightContent
    by_cases leftHole : left = hole <;> by_cases rightHole : right = hole
    · rw [leftHole, rightHole]
    · subst leftHole
      rw [update_self] at leftContent
      rw [update_of_ne rightHole] at rightContent
      exact absurd (inv.unique position scanBelow proper right rightBelow rightHole slot
        leftContent rightContent).symm rightElse
    · subst rightHole
      rw [update_self] at rightContent
      rw [update_of_ne leftHole] at leftContent
      exact absurd (inv.unique left leftBelow leftHole position scanBelow proper slot
        leftContent rightContent) leftElse
    · rw [update_of_ne leftHole] at leftContent
      rw [update_of_ne rightHole] at rightContent
      exact inv.unique left leftBelow leftHole right rightBelow rightHole slot leftContent
        rightContent
  · intro index below
    by_cases atHole : index = hole
    · subst atHole
      rw [update_self]
      exact inv.clean position scanBelow
    · rw [update_of_ne atHole]
      exact inv.clean index below

/-- The scanned bucket stays where it is. -/
theorem ShiftInv.skip {hole scan : Nat} (inv : ShiftInv numBuckets buckets keyAt hole scan)
    (proper : advance numBuckets scan ≠ hole)
    (stays : ¬ CanMove numBuckets (homeOf numBuckets buckets (advance numBuckets scan)) hole
      (advance numBuckets scan)) :
    ShiftInv numBuckets buckets keyAt hole (advance numBuckets scan) :=
  ⟨shifting_skip inv.shifting proper stays, inv.sound, inv.complete, inv.unique, inv.clean⟩

/-- The shift loop ends at an empty bucket with the invariant intact.

Proof: an empty bucket lies ahead of the scan and before the hole is met again.
Each round brings the scan one position closer to it, so neither the bound on the
rounds nor a full turn ends the loop. -/
theorem shiftFrom_spec (power : numBuckets = 2 ^ bits) {vacant : Nat}
    (vacantBelow : vacant < numBuckets) (fuel hole scan : Nat) (buckets : Nat → Bucket)
    (inv : ShiftInv numBuckets buckets keyAt hole scan) (empty : ¬ Occupied buckets vacant)
    (ahead : distance numBuckets hole scan < distance numBuckets hole vacant)
    (enough : distance numBuckets scan vacant ≤ fuel) :
    ∃ last final shifted,
      shiftFrom numBuckets fuel hole scan buckets = (advance numBuckets last, final, shifted) ∧
      ShiftInv numBuckets shifted keyAt final last ∧
      ¬ Occupied shifted (advance numBuckets last) := by
  have scanBelow := inv.shifting.scanBelow
  have holeBelow := inv.shifting.holeBelow
  have different : scan ≠ vacant := fun same => Nat.lt_irrefl _ (same ▸ ahead)
  have closer := advance_distance scanBelow vacantBelow different
  have nextBelow := advance_lt scanBelow
  induction fuel generalizing hole scan buckets with
  | zero => omega
  | succ fuel inductionHypothesis =>
    unfold shiftFrom
    simp only [nextBucket_eq power scanBelow]
    by_cases ends : (buckets (advance numBuckets scan)).dirSlot = .empty
    · rw [if_pos ends]
      exact ⟨scan, hole, buckets, rfl, inv, fun occupied => occupied ends⟩
    · rw [if_neg ends]
      have further : advance numBuckets scan ≠ vacant := fun same => empty (same ▸ ends)
      have proper : advance numBuckets scan ≠ hole := by
        rintro rfl
        have bounded := distance_lt nextBelow vacantBelow
        unfold advance distance at *
        split_ifs at * <;> omega
      have step := distance_advance holeBelow proper
      have movable := canMove_iff (advance numBuckets scan)
        (homeBucket_lt power (buckets (advance numBuckets scan)).keyHash) holeBelow
      have continued := advance_distance nextBelow vacantBelow further
      by_cases moves : canMove (homeOf numBuckets buckets (advance numBuckets scan)) hole
          (advance numBuckets scan) = true
      · have moved := inv.move proper ends (movable.mp moves)
        rw [homeOf] at moves
        rw [if_pos moves]
        have emptyStill :
            ¬ Occupied (update buckets hole (buckets (advance numBuckets scan))) vacant := by
          have apart : vacant ≠ hole := fun same => empty (same ▸ inv.shifting.filled)
          simpa only [Occupied, update_of_ne apart] using empty
        have onward : distance numBuckets (advance numBuckets scan) (advance numBuckets scan)
            < distance numBuckets (advance numBuckets scan) vacant := by
          rw [distance_self]
          omega
        exact inductionHypothesis _ _ _ moved emptyStill onward (by omega) nextBelow nextBelow
          further continued (advance_lt nextBelow)
      · have skipped := inv.skip proper (fun can => moves (movable.mpr can))
        rw [homeOf] at moves
        rw [if_neg moves]
        have onward : distance numBuckets hole (advance numBuckets scan)
            < distance numBuckets hole vacant := by
          have apart : distance numBuckets hole (advance numBuckets scan) ≠
              distance numBuckets hole vacant := fun same =>
            further (distance_inj holeBelow nextBelow vacantBelow same)
          omega
        exact inductionHypothesis _ _ _ skipped empty onward (by omega) nextBelow holeBelow
          further continued (advance_lt nextBelow)

namespace IndexInv

/-- Deletion under the hash of the key of a slot removes it from the
assignment. -/
theorem delete (inv : IndexInv maxKeys numBuckets buckets keyAt)
    (power : numBuckets = 2 ^ bits) (load : 2 * maxKeys ≤ numBuckets) (proper : 2 ≤ numBuckets)
    {target : Nat} {key : Key} (holds : keyAt target = some key) :
    IndexInv maxKeys numBuckets (hashmapDelete numBuckets (fnv1aHash key) target buckets)
      (update keyAt target none) := by
  obtain ⟨vacant, vacantBelow, empty⟩ := inv.exists_empty load proper
  obtain ⟨found, foundBelow, content⟩ := inv.complete target key holds
  obtain ⟨other, held, hash⟩ := inv.sound found foundBelow target content
  obtain rfl := Option.some.inj (holds.symm.trans held)
  have occupied : Occupied buckets found := fun none => nomatch content.symm.trans none
  have homed : homeOf numBuckets buckets found = homeBucket numBuckets (fnv1aHash key) := by
    rw [homeOf, hash]
  have path := (inv.reachable found foundBelow occupied).2
  rw [homed] at path
  have homeBelow := homeBucket_lt power (fnv1aHash key)
  have located : locateFrom numBuckets (fnv1aHash key) target buckets numBuckets
      (homeBucket numBuckets (fnv1aHash key)) = some found :=
    locateFrom_spec power homeBelow foundBelow content hash
      (fun index below same => inv.unique index below found foundBelow target same content) path
      numBuckets _ 0 (by omega) (fun _ => ⟨homeBelow, distance_self _⟩) (Nat.zero_le _)
  have others : ∀ slot otherKey, update keyAt target none slot = some otherKey →
      slot ≠ target ∧ keyAt slot = some otherKey := by
    intro slot otherKey assigned
    by_cases same : slot = target
    · subst same
      simp at assigned
    · exact ⟨same, by rwa [update_of_ne same] at assigned⟩
  have start : ShiftInv numBuckets buckets (update keyAt target none) found found := by
    refine ⟨shifting_start inv.reachable foundBelow occupied, ?_, ?_, ?_, inv.clean⟩
    · intro index below different slot inside
      obtain ⟨slotKey, assigned, slotHash⟩ := inv.sound index below slot inside
      have notTarget : slot ≠ target := by
        rintro rfl
        exact different (inv.unique index below found foundBelow slot inside content)
      exact ⟨slotKey, by rw [update_of_ne notTarget, assigned], slotHash⟩
    · intro slot slotKey assigned
      obtain ⟨notTarget, before⟩ := others slot slotKey assigned
      obtain ⟨index, below, inside⟩ := inv.complete slot slotKey before
      refine ⟨index, below, ?_, inside⟩
      rintro rfl
      exact notTarget (BucketSlot.slot.inj (inside.symm.trans content))
    · exact fun left leftBelow _ right rightBelow _ slot leftInside rightInside =>
        inv.unique left leftBelow right rightBelow slot leftInside rightInside
  have notVacant : found ≠ vacant := fun same => empty (same ▸ occupied)
  have away : distance numBuckets found found < distance numBuckets found vacant := by
    rw [distance_self]
    exact Nat.pos_of_ne_zero fun none => notVacant (distance_eq_zero foundBelow none)
  obtain ⟨last, final, shifted, result, after, stopped⟩ :=
    shiftFrom_spec power vacantBelow numBuckets found found buckets start empty away
      (distance_lt foundBelow vacantBelow).le
  simp only [hashmapDelete, located, result]
  generalize (shifted (advance numBuckets last)).keyHash = staleHash
  have elsewhere : ∀ index slot,
      (update shifted final ⟨staleHash, .empty⟩ index).dirSlot = .slot slot →
        index ≠ final ∧ (shifted index).dirSlot = .slot slot := by
    intro index slot inside
    by_cases atFinal : index = final
    · subst atFinal
      simp at inside
    · exact ⟨atFinal, by rwa [update_of_ne atFinal] at inside⟩
  refine ⟨?_, ?_, ?_, ?_, ?_, ?_⟩
  · exact fun slot slotKey assigned => inv.bounded slot slotKey (others slot slotKey assigned).2
  · intro index below slot inside
    obtain ⟨notFinal, before⟩ := elsewhere index slot inside
    rw [update_of_ne notFinal]
    exact after.sound index below notFinal slot before
  · intro slot slotKey assigned
    obtain ⟨index, below, notFinal, inside⟩ := after.complete slot slotKey assigned
    exact ⟨index, below, by rw [update_of_ne notFinal, inside]⟩
  · intro left leftBelow right rightBelow slot leftInside rightInside
    obtain ⟨leftElse, leftBefore⟩ := elsewhere left slot leftInside
    obtain ⟨rightElse, rightBefore⟩ := elsewhere right slot rightInside
    exact after.unique left leftBelow leftElse right rightBelow rightElse slot leftBefore
      rightBefore
  · intro index below
    by_cases atFinal : index = final
    · subst atFinal
      simp
    · rw [update_of_ne atFinal]
      exact after.clean index below
  · have finished := shifting_finish
      (Occupied (update shifted final ⟨staleHash, .empty⟩)) after.shifting stopped
      (by
        intro index
        by_cases atFinal : index = final
        · subst atFinal
          simp [Occupied]
        · simp [Occupied, atFinal])
    intro index below present
    have notFinal : index ≠ final := by
      rintro rfl
      simp [Occupied] at present
    have sameHome : homeOf numBuckets (update shifted final ⟨staleHash, .empty⟩) index =
        homeOf numBuckets shifted index := by
      simp only [homeOf, update_of_ne notFinal]
    rw [sameHome]
    exact finished index below present

end IndexInv

end KvCache.HashIndex
