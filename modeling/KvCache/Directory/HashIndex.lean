import KvCache.Foundation.CyclicProbe
import KvCache.Protocol.Layout
import Mathlib.Data.Finset.Card
import Mathlib.Data.Fintype.Card
import Mathlib.Logic.Function.Basic

/-!
# The hash index from keys to directory slots

Buckets hold the 32-bit FNV-1a hash of a key and a directory slot. The index
accelerates lookup and establishes no authority: a candidate bucket counts only
if the directory entry of its slot is valid and has the requested key. Insertion
takes the first bucket that is empty or marked deleted; deletion shifts the rest
of the cluster backwards and leaves no mark.

The loops visit buckets by adding one under the power-of-two mask and are bounded
by the number of buckets, as in the kernel.
-/

namespace KvCache.HashIndex

open CyclicProbe Function Layout

/-- Key bytes; the key length is the length of the list. -/
abbrev Key := List UInt8

/-- The directory-slot word of a bucket. -/
inductive BucketSlot where
  | empty
  | tombstone
  | slot (dirSlot : Nat)
deriving DecidableEq, Repr

/-- One bucket. -/
structure Bucket where
  keyHash : Nat
  dirSlot : BucketSlot
deriving DecidableEq, Repr

/-- FNV-1a over the key bytes, in 32-bit words. -/
def fnv1aHash (key : Key) : Nat :=
  key.foldl (fun hash byte => (hash ^^^ byte.toNat) * 16777619 % 2 ^ 32) 2166136261

/-- Home bucket of a hash. -/
def homeBucket (numBuckets keyHash : Nat) : Nat := keyHash &&& (numBuckets - 1)

/-- The next bucket under the mask. -/
def nextBucket (numBuckets index : Nat) : Nat := (index + 1) &&& (numBuckets - 1)

/-- Probe for a key; `confirm` revalidates a candidate slot against the
directory. -/
def lookupFrom (numBuckets keyHash : Nat) (confirm : Nat → Bool) (buckets : Nat → Bucket) :
    Nat → Nat → Option Nat
  | 0, _ => none
  | fuel + 1, index =>
    match (buckets index).dirSlot with
    | .empty => none
    | .tombstone =>
      lookupFrom numBuckets keyHash confirm buckets fuel (nextBucket numBuckets index)
    | .slot slot =>
      if (buckets index).keyHash = keyHash ∧ confirm slot = true then some slot
      else lookupFrom numBuckets keyHash confirm buckets fuel (nextBucket numBuckets index)

/-- Look up a hash. -/
def hashmapLookup (numBuckets keyHash : Nat) (confirm : Nat → Bool) (buckets : Nat → Bucket) :
    Option Nat :=
  lookupFrom numBuckets keyHash confirm buckets numBuckets (homeBucket numBuckets keyHash)

/-- Probe for a bucket to fill. A full table leaves the buckets unchanged. -/
def insertFrom (numBuckets keyHash slot : Nat) (buckets : Nat → Bucket) :
    Nat → Nat → Nat → Bucket
  | 0, _ => buckets
  | fuel + 1, index =>
    match (buckets index).dirSlot with
    | .slot _ => insertFrom numBuckets keyHash slot buckets fuel (nextBucket numBuckets index)
    | _ => update buckets index ⟨keyHash, .slot slot⟩

/-- Insert a slot under a hash. -/
def hashmapInsert (numBuckets keyHash slot : Nat) (buckets : Nat → Bucket) : Nat → Bucket :=
  insertFrom numBuckets keyHash slot buckets numBuckets (homeBucket numBuckets keyHash)

/-- Probe for the bucket of a slot. -/
def locateFrom (numBuckets keyHash target : Nat) (buckets : Nat → Bucket) :
    Nat → Nat → Option Nat
  | 0, _ => none
  | fuel + 1, index =>
    match (buckets index).dirSlot with
    | .empty => none
    | .tombstone => locateFrom numBuckets keyHash target buckets fuel (nextBucket numBuckets index)
    | .slot slot =>
      if slot = target ∧ (buckets index).keyHash = keyHash then some index
      else locateFrom numBuckets keyHash target buckets fuel (nextBucket numBuckets index)

/-- The scanned bucket moves up unless its home lies cyclically in
`(hole, scan]`. -/
def canMove (home hole scan : Nat) : Bool :=
  if hole ≤ scan then decide (home ≤ hole ∨ scan < home) else decide (home ≤ hole ∧ scan < home)

/-- The shift loop, ending with the last bucket read, the hole and the buckets. -/
def shiftFrom (numBuckets : Nat) : Nat → Nat → Nat → (Nat → Bucket) → Nat × Nat × (Nat → Bucket)
  | 0, hole, scan, buckets => (scan, hole, buckets)
  | fuel + 1, hole, scan, buckets =>
    let scan := nextBucket numBuckets scan
    if (buckets scan).dirSlot = .empty then (scan, hole, buckets)
    else if canMove (homeBucket numBuckets (buckets scan).keyHash) hole scan then
      shiftFrom numBuckets fuel scan scan (update buckets hole (buckets scan))
    else shiftFrom numBuckets fuel hole scan buckets

/-- Delete the bucket of a slot under a hash, if there is one. -/
def hashmapDelete (numBuckets keyHash target : Nat) (buckets : Nat → Bucket) : Nat → Bucket :=
  match locateFrom numBuckets keyHash target buckets numBuckets
      (homeBucket numBuckets keyHash) with
  | none => buckets
  | some found =>
    let (scan, hole, shifted) := shiftFrom numBuckets numBuckets found found buckets
    update shifted hole ⟨(shifted scan).keyHash, .empty⟩

/-! ## Buckets as a probing table -/

/-- A bucket that ends no probe. -/
def Occupied (buckets : Nat → Bucket) (index : Nat) : Prop := (buckets index).dirSlot ≠ .empty

/-- Home of the content of a bucket. -/
def homeOf (numBuckets : Nat) (buckets : Nat → Bucket) (index : Nat) : Nat :=
  homeBucket numBuckets (buckets index).keyHash

/-- The buckets are in bijection with the slots that hold a key, under the hash
of that key, and every bucket is reachable by probing from its home. -/
structure IndexInv (maxKeys numBuckets : Nat) (buckets : Nat → Bucket)
    (keyAt : Nat → Option Key) : Prop where
  bounded : ∀ slot key, keyAt slot = some key → slot < maxKeys
  sound : ∀ index < numBuckets, ∀ slot, (buckets index).dirSlot = .slot slot →
    ∃ key, keyAt slot = some key ∧ (buckets index).keyHash = fnv1aHash key
  complete : ∀ slot key, keyAt slot = some key →
    ∃ index < numBuckets, (buckets index).dirSlot = .slot slot
  unique : ∀ left < numBuckets, ∀ right < numBuckets, ∀ slot,
    (buckets left).dirSlot = .slot slot → (buckets right).dirSlot = .slot slot → left = right
  clean : ∀ index < numBuckets, (buckets index).dirSlot ≠ .tombstone
  reachable : Reachable numBuckets (Occupied buckets) (homeOf numBuckets buckets)

section Ring

variable {numBuckets : Nat}

/-- Under a power-of-two mask the next bucket is the next position of the ring. -/
theorem nextBucket_eq {bits index : Nat} (power : numBuckets = 2 ^ bits)
    (below : index < numBuckets) : nextBucket numBuckets index = advance numBuckets index := by
  subst power
  unfold nextBucket advance
  rw [Nat.and_two_pow_sub_one_eq_mod]
  split
  · next last => rw [last, Nat.mod_self]
  · exact Nat.mod_eq_of_lt (by omega)

theorem homeBucket_lt {bits : Nat} (power : numBuckets = 2 ^ bits) (keyHash : Nat) :
    homeBucket numBuckets keyHash < numBuckets := by
  subst power
  unfold homeBucket
  rw [Nat.and_two_pow_sub_one_eq_mod]
  exact Nat.mod_lt _ (Nat.two_pow_pos bits)

/-- The kernel's case distinction is the comparison of distances from the home
and from the hole. -/
theorem canMove_iff {home hole : Nat} (scan : Nat) (homeBelow : home < numBuckets)
    (holeBelow : hole < numBuckets) :
    canMove home hole scan = true ↔ CanMove numBuckets home hole scan := by
  unfold canMove CanMove distance
  split_ifs <;> simp only [decide_eq_true_eq] <;> omega

end Ring

namespace IndexInv

variable {maxKeys numBuckets : Nat} {buckets : Nat → Bucket} {keyAt : Nat → Option Key}

/-- An occupied bucket names a slot that holds a key. -/
theorem occupied_slot (inv : IndexInv maxKeys numBuckets buckets keyAt) {index : Nat}
    (below : index < numBuckets) (occupied : Occupied buckets index) :
    ∃ slot key, (buckets index).dirSlot = .slot slot ∧ keyAt slot = some key ∧
      (buckets index).keyHash = fnv1aHash key := by
  cases content : (buckets index).dirSlot with
  | empty => exact absurd content occupied
  | tombstone => exact absurd content (inv.clean index below)
  | slot slot =>
    obtain ⟨key, holds, hash⟩ := inv.sound index below slot content
    exact ⟨slot, key, rfl, holds, hash⟩

/-- A table at most half full has an empty bucket. -/
theorem exists_empty (inv : IndexInv maxKeys numBuckets buckets keyAt)
    (load : 2 * maxKeys ≤ numBuckets) (proper : 2 ≤ numBuckets) :
    ∃ index < numBuckets, ¬ Occupied buckets index := by
  by_contra full
  have occupied : ∀ index : Fin numBuckets, Occupied buckets index.val := by
    intro index
    by_contra vacant
    exact full ⟨index.val, index.isLt, vacant⟩
  choose slot key content holds _ using
    fun index : Fin numBuckets => inv.occupied_slot index.isLt (occupied index)
  have injective : Function.Injective
      (fun index : Fin numBuckets => (⟨slot index, inv.bounded _ _ (holds index)⟩ : Fin maxKeys)) := by
    intro left right same
    have slots : slot left = slot right := congrArg Fin.val same
    exact Fin.ext (inv.unique left left.isLt right right.isLt (slot left) (content left)
      (slots ▸ content right))
  have counted := Fintype.card_le_of_injective _ injective
  simp only [Fintype.card_fin] at counted
  omega

end IndexInv

/-! ## The probe loops -/

section Loops

variable {numBuckets bits keyHash home : Nat} {buckets : Nat → Bucket} {confirm : Nat → Bool}

/-- One probe visits the position one further from the home. -/
theorem distance_next {index visited : Nat} (homeBelow : home < numBuckets)
    (below : index < numBuckets) (reached : distance numBuckets home index = visited)
    (more : visited + 1 < numBuckets) :
    advance numBuckets index < numBuckets ∧
      distance numBuckets home (advance numBuckets index) = visited + 1 := by
  refine ⟨advance_lt below, ?_⟩
  rw [distance_advance homeBelow, reached]
  rintro rfl
  unfold distance advance at *
  split_ifs at * <;> omega

/-- Having visited all positions closer than the current one, a probe has passed
one more after the current one. -/
theorem passed_next {Passed : Nat → Prop} {index visited : Nat} (homeBelow : home < numBuckets)
    (below : index < numBuckets) (reached : distance numBuckets home index = visited)
    (before : ∀ other < numBuckets, distance numBuckets home other < visited → Passed other)
    (here : Passed index) :
    ∀ other < numBuckets, distance numBuckets home other < visited + 1 → Passed other := by
  intro other inRing closer
  rcases Nat.lt_succ_iff_lt_or_eq.mp closer with less | equal
  · exact before other inRing less
  · exact distance_inj homeBelow inRing below (equal.trans reached.symm) ▸ here

/-- A candidate that the probe would return. -/
def Matches (keyHash : Nat) (confirm : Nat → Bool) (bucket : Bucket) (slot : Nat) : Prop :=
  bucket.dirSlot = .slot slot ∧ bucket.keyHash = keyHash ∧ confirm slot = true

/-- The probe returns a candidate, or there is none without an empty bucket
before it. -/
theorem lookupFrom_spec (buckets : Nat → Bucket) (keyHash : Nat) (confirm : Nat → Bool)
    (power : numBuckets = 2 ^ bits) (homeBelow : home < numBuckets)
    (fuel index visited : Nat) (total : visited + fuel = numBuckets)
    (current : visited < numBuckets →
      index < numBuckets ∧ distance numBuckets home index = visited)
    (passed : ∀ other < numBuckets, distance numBuckets home other < visited →
      ∀ slot, ¬ Matches keyHash confirm (buckets other) slot) :
    (∀ slot, lookupFrom numBuckets keyHash confirm buckets fuel index = some slot →
      ∃ found < numBuckets, Matches keyHash confirm (buckets found) slot) ∧
    (lookupFrom numBuckets keyHash confirm buckets fuel index = none →
      ∀ other < numBuckets, (∀ between < numBuckets,
        distance numBuckets home between < distance numBuckets home other →
          Occupied buckets between) →
      ∀ slot, ¬ Matches keyHash confirm (buckets other) slot) := by
  induction fuel generalizing index visited with
  | zero =>
    refine ⟨fun slot found => (nomatch found), fun _ other inRing _ => ?_⟩
    exact passed other inRing (by
      have bounded := distance_lt homeBelow inRing
      omega)
  | succ fuel inductionHypothesis =>
    obtain ⟨below, reached⟩ := current (by omega)
    have continued : (∀ slot, ¬ Matches keyHash confirm (buckets index) slot) →
        (∀ slot, lookupFrom numBuckets keyHash confirm buckets fuel
            (nextBucket numBuckets index) = some slot →
          ∃ found < numBuckets, Matches keyHash confirm (buckets found) slot) ∧
        (lookupFrom numBuckets keyHash confirm buckets fuel (nextBucket numBuckets index) = none →
          ∀ other < numBuckets, (∀ between < numBuckets,
            distance numBuckets home between < distance numBuckets home other →
              Occupied buckets between) →
          ∀ slot, ¬ Matches keyHash confirm (buckets other) slot) := by
      intro here
      rw [nextBucket_eq power below]
      exact inductionHypothesis _ (visited + 1) (by omega)
        (fun more => distance_next homeBelow below reached more)
        (passed_next homeBelow below reached passed here)
    unfold lookupFrom
    cases content : (buckets index).dirSlot with
    | empty =>
      refine ⟨fun slot found => (nomatch found), fun _ other inRing path slot candidate => ?_⟩
      rcases Nat.lt_trichotomy (distance numBuckets home other) visited with closer | same | further
      · exact passed other inRing closer slot candidate
      · have equal := distance_inj homeBelow inRing below (same.trans reached.symm)
        rw [equal] at candidate
        exact nomatch content.symm.trans candidate.1
      · exact path index below (reached ▸ further) content
    | tombstone =>
      exact continued fun slot candidate => nomatch content.symm.trans candidate.1
    | slot slot =>
      simp only
      split
      · next accepted =>
        refine ⟨fun found same => ?_, fun impossible => nomatch impossible⟩
        obtain rfl := Option.some.inj same
        exact ⟨index, below, content, accepted.1, accepted.2⟩
      · next rejected =>
        refine continued fun other candidate => rejected ⟨candidate.2.1, ?_⟩
        have same := content.symm.trans candidate.1
        rw [BucketSlot.slot.injEq] at same
        exact same ▸ candidate.2.2

/-- With an empty bucket somewhere and no deletion marks, insertion fills the
first empty bucket after the home. -/
theorem insertFrom_spec (power : numBuckets = 2 ^ bits) (homeBelow : home < numBuckets)
    {slot vacant : Nat} (vacantBelow : vacant < numBuckets) (empty : ¬ Occupied buckets vacant)
    (clean : ∀ index < numBuckets, (buckets index).dirSlot ≠ .tombstone)
    (fuel index visited : Nat) (total : visited + fuel = numBuckets)
    (current : visited < numBuckets →
      index < numBuckets ∧ distance numBuckets home index = visited)
    (passed : ∀ other < numBuckets, distance numBuckets home other < visited →
      Occupied buckets other) :
    ∃ filled < numBuckets, ¬ Occupied buckets filled ∧
      (∀ other < numBuckets, distance numBuckets home other < distance numBuckets home filled →
        Occupied buckets other) ∧
      insertFrom numBuckets keyHash slot buckets fuel index =
        update buckets filled ⟨keyHash, .slot slot⟩ := by
  induction fuel generalizing index visited with
  | zero =>
    refine absurd (passed vacant vacantBelow ?_) empty
    have bounded := distance_lt homeBelow vacantBelow
    omega
  | succ fuel inductionHypothesis =>
    obtain ⟨below, reached⟩ := current (by omega)
    unfold insertFrom
    cases content : (buckets index).dirSlot with
    | empty =>
      exact ⟨index, below, fun occupied => occupied content,
        fun other inRing closer => passed other inRing (reached ▸ closer), rfl⟩
    | tombstone => exact absurd content (clean index below)
    | slot other =>
      have occupied : Occupied buckets index := fun none => nomatch content.symm.trans none
      simp only [nextBucket_eq power below]
      exact inductionHypothesis _ (visited + 1) (by omega)
        (fun more => distance_next homeBelow below reached more)
        (passed_next homeBelow below reached passed occupied)

/-- The locating probe returns the bucket of a slot that is there. -/
theorem locateFrom_spec (power : numBuckets = 2 ^ bits) (homeBelow : home < numBuckets)
    {target found : Nat} (foundBelow : found < numBuckets)
    (content : (buckets found).dirSlot = .slot target) (hash : (buckets found).keyHash = keyHash)
    (unique : ∀ other < numBuckets, (buckets other).dirSlot = .slot target → other = found)
    (path : ∀ between < numBuckets,
      distance numBuckets home between < distance numBuckets home found →
        Occupied buckets between)
    (fuel index visited : Nat) (total : visited + fuel = numBuckets)
    (current : visited < numBuckets →
      index < numBuckets ∧ distance numBuckets home index = visited)
    (before : visited ≤ distance numBuckets home found) :
    locateFrom numBuckets keyHash target buckets fuel index = some found := by
  induction fuel generalizing index visited with
  | zero =>
    have bounded := distance_lt homeBelow foundBelow
    omega
  | succ fuel inductionHypothesis =>
    obtain ⟨below, reached⟩ := current (by omega)
    unfold locateFrom
    by_cases here : index = found
    · subst here
      simp [content, hash]
    · have further : visited < distance numBuckets home found := by
        refine Nat.lt_of_le_of_ne before fun same => here ?_
        exact distance_inj homeBelow below foundBelow (reached.trans same)
      have rest := inductionHypothesis (advance numBuckets index) (visited + 1) (by omega)
        (fun more => distance_next homeBelow below reached more) further
      rw [← nextBucket_eq power below] at rest
      cases inside : (buckets index).dirSlot with
      | empty => exact absurd inside (path index below (reached ▸ further))
      | tombstone => exact rest
      | slot slot =>
        simp only
        rw [if_neg]
        · exact rest
        · rintro ⟨rfl, _⟩
          exact here (unique index below inside)

end Loops

end KvCache.HashIndex
