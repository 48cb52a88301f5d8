import KvCache.Foundation.JsonText
import Mathlib.Data.List.Dedup
import Mathlib.Data.List.Sort
import Mathlib.Data.String.Basic

/-!
# JSON values as Python sees them

An object is a dictionary: of members with one key the last counts, and their order does not
matter. The canonical form of a value lists the keys of every object once and in ascending
order; two values are the same where their canonical forms are. An object is determined by
what it has at each key.
-/

namespace KvCache.Json

variable {φ : Type}

/-- The value at a key. -/
def get? (key : String) : List (String × Json φ) → Option (Json φ)
  | [] => none
  | (first, value) :: rest =>
    match get? key rest with
    | some later => some later
    | none => if first = key then some value else none

theorem get?_cons (key first : String) (value : Json φ) (rest : List (String × Json φ)) :
    get? key ((first, value) :: rest) =
      match get? key rest with
      | some later => some later
      | none => if first = key then some value else none := rfl

/-- The keys in ascending order, each once. -/
def sortedKeys (members : List (String × Json φ)) : List String :=
  (members.map (·.1)).dedup.insertionSort (· ≤ ·)

/-- The members in the order of their keys. -/
def sortMembers (members : List (String × Json φ)) : List (String × Json φ) :=
  (sortedKeys members).filterMap fun key => (get? key members).map (key, ·)

mutual

/-- The canonical form. -/
def canonical : Json φ → Json φ
  | .arr items => .arr (canonicalItems items)
  | .obj members => .obj (sortMembers (canonicalMembers members))
  | .null => .null
  | .bool value => .bool value
  | .int value => .int value
  | .float value => .float value
  | .str value => .str value

def canonicalItems : List (Json φ) → List (Json φ)
  | [] => []
  | item :: items => canonical item :: canonicalItems items

def canonicalMembers : List (String × Json φ) → List (String × Json φ)
  | [] => []
  | (key, value) :: members => (key, canonical value) :: canonicalMembers members

end

/-! The canonical form by cases. -/

@[simp] theorem canonical_null : canonical (.null : Json φ) = .null := rfl

@[simp] theorem canonical_bool (value : Bool) :
    canonical (.bool value : Json φ) = .bool value := rfl

@[simp] theorem canonical_int (value : Int) : canonical (.int value : Json φ) = .int value := rfl

@[simp] theorem canonical_float (value : φ) : canonical (.float value) = .float value := rfl

@[simp] theorem canonical_str (value : String) : canonical (.str value : Json φ) = .str value := rfl

@[simp] theorem canonical_arr (items : List (Json φ)) :
    canonical (.arr items) = .arr (canonicalItems items) := rfl

@[simp] theorem canonical_obj (members : List (String × Json φ)) :
    canonical (.obj members) = .obj (sortMembers (canonicalMembers members)) := rfl

@[simp] theorem canonicalItems_cons (item : Json φ) (items : List (Json φ)) :
    canonicalItems (item :: items) = canonical item :: canonicalItems items := rfl

@[simp] theorem canonicalMembers_cons (key : String) (value : Json φ)
    (members : List (String × Json φ)) :
    canonicalMembers ((key, value) :: members) =
      (key, canonical value) :: canonicalMembers members := rfl

/-- Values that Python does not tell apart, types included. -/
def Same (one other : Json φ) : Prop := canonical one = canonical other

theorem Same.refl (value : Json φ) : Same value value := rfl

theorem Same.symm {one other : Json φ} (same : Same one other) : Same other one := Eq.symm same

theorem Same.trans {one middle other : Json φ} (same : Same one middle) (also : Same middle other) :
    Same one other := Eq.trans same also

/-! ## Objects -/

theorem get?_canonicalMembers (key : String) (members : List (String × Json φ)) :
    get? key (canonicalMembers members) = (get? key members).map canonical := by
  induction members with
  | nil => rfl
  | cons member members inductionHypothesis =>
    obtain ⟨first, value⟩ := member
    rw [canonicalMembers_cons, get?_cons, get?_cons, inductionHypothesis]
    cases get? key members with
    | some later => rfl
    | none =>
      dsimp only [Option.map_none]
      split <;> rfl

theorem get?_isSome {key : String} {members : List (String × Json φ)} :
    (get? key members).isSome ↔ key ∈ members.map (·.1) := by
  induction members with
  | nil => simp [show get? key ([] : List (String × Json φ)) = none from rfl]
  | cons member members inductionHypothesis =>
    obtain ⟨first, value⟩ := member
    rw [get?_cons, List.map_cons, List.mem_cons, ← inductionHypothesis]
    cases get? key members with
    | some later => simp
    | none =>
      by_cases same : first = key
      · simp [same]
      · simp [same, Ne.symm same]

theorem mem_sortedKeys {key : String} {members : List (String × Json φ)} :
    key ∈ sortedKeys members ↔ (get? key members).isSome := by
  rw [sortedKeys, List.mem_insertionSort, List.mem_dedup, get?_isSome]

theorem sortedKeys_nodup (members : List (String × Json φ)) : (sortedKeys members).Nodup :=
  ((List.perm_insertionSort _ _).nodup_iff).mpr (List.nodup_dedup _)

/-- The sorted keys are determined by what is at each key. -/
theorem sortedKeys_eq {one other : List (String × Json φ)}
    (same : ∀ key, (get? key one).isSome ↔ (get? key other).isSome) :
    sortedKeys one = sortedKeys other := by
  have permuted : (sortedKeys one).Perm (sortedKeys other) :=
    (List.perm_ext_iff_of_nodup (sortedKeys_nodup one) (sortedKeys_nodup other)).mpr fun key => by
      rw [mem_sortedKeys, mem_sortedKeys, same]
  exact permuted.eq_of_pairwise (fun _ _ _ _ => le_antisymm)
    (List.pairwise_insertionSort _ _) (List.pairwise_insertionSort _ _)

theorem get?_eq_none {key : String} {members : List (String × Json φ)}
    (absent : key ∉ members.map (·.1)) : get? key members = none := by
  rwa [← get?_isSome, Option.not_isSome_iff_eq_none] at absent

/-- Later members count. -/
theorem get?_append (key : String) (members others : List (String × Json φ)) :
    get? key (members ++ others) = (get? key others).or (get? key members) := by
  induction members with
  | nil => exact (Option.or_none ..).symm
  | cons member members inductionHypothesis =>
    obtain ⟨first, value⟩ := member
    rw [List.cons_append, get?_cons, get?_cons, inductionHypothesis]
    cases get? key others with
    | some later => rfl
    | none => rfl

/-- Where keys are distinct each member is found. -/
theorem get?_of_mem {members : List (String × Json φ)} (distinct : (members.map (·.1)).Nodup)
    {member : String × Json φ} (inside : member ∈ members) :
    get? member.1 members = some member.2 := by
  induction members with
  | nil => cases inside
  | cons first rest inductionHypothesis =>
    obtain ⟨apart, distinct⟩ := List.nodup_cons.mp distinct
    rw [get?_cons]
    rcases List.mem_cons.mp inside with rfl | later
    · rw [get?_eq_none apart]
      exact if_pos rfl
    · rw [inductionHypothesis distinct later]

/-- The lookup in a list made from distinct keys. -/
theorem get?_filterMap {keys : List String} (distinct : keys.Nodup)
    (value : String → Option (Json φ)) (key : String) :
    get? key (keys.filterMap fun key => (value key).map (key, ·)) =
      if key ∈ keys then value key else none := by
  induction keys with
  | nil => rfl
  | cons first rest inductionHypothesis =>
    obtain ⟨apart, distinct⟩ := List.nodup_cons.mp distinct
    have later := inductionHypothesis distinct
    rw [List.filterMap_cons]
    by_cases same : key = first
    · subst same
      rw [if_neg apart] at later
      cases there : value key with
      | none => simpa using later
      | some found => simp [get?_cons, later]
    · cases value first with
      | none => simpa [same] using later
      | some found =>
        simp only [Option.map_some, get?_cons, later, if_neg (Ne.symm same), List.mem_cons, same, false_or]
        cases (if key ∈ rest then value key else none) <;> rfl

theorem get?_sortMembers (key : String) (members : List (String × Json φ)) :
    get? key (sortMembers members) = get? key members := by
  rw [sortMembers, get?_filterMap (sortedKeys_nodup members)]
  split
  · rfl
  · next absent =>
    rw [mem_sortedKeys, Option.not_isSome_iff_eq_none] at absent
    exact absent.symm

/-- Two objects are the same where they have the same at each key. -/
theorem same_obj_iff {one other : List (String × Json φ)} :
    Same (.obj one) (.obj other) ↔
      ∀ key, (get? key one).map canonical = (get? key other).map canonical := by
  simp only [Same, canonical_obj, Json.obj.injEq]
  constructor
  · intro sorted key
    rw [← get?_canonicalMembers, ← get?_canonicalMembers, ← get?_sortMembers, sorted,
      get?_sortMembers]
  · intro same
    have lookups : ∀ key, get? key (canonicalMembers one) = get? key (canonicalMembers other) :=
      fun key => by rw [get?_canonicalMembers, get?_canonicalMembers, same]
    have keys : sortedKeys (canonicalMembers one) = sortedKeys (canonicalMembers other) :=
      sortedKeys_eq fun key => by rw [lookups]
    simp only [sortMembers, keys, lookups]

/-- The same where both have the given keys, and the same at each of them. -/
theorem same_obj_of_keys {one other : List (String × Json φ)} (keys : List String)
    (first : ∀ key, key ∈ one.map (·.1) ↔ key ∈ keys)
    (second : ∀ key, key ∈ other.map (·.1) ↔ key ∈ keys) :
    Same (.obj one) (.obj other) ↔ ∀ key ∈ keys, ∀ value, get? key one = some value →
      ∀ found, get? key other = some found → Same value found := by
  rw [same_obj_iff]
  constructor
  · intro same key _ value there found also
    have equal := same key
    rw [there, also] at equal
    exact Option.some.inj equal
  · intro same key
    by_cases member : key ∈ keys
    · obtain ⟨value, there⟩ := Option.isSome_iff_exists.mp (get?_isSome.mpr ((first key).mpr member))
      obtain ⟨found, also⟩ := Option.isSome_iff_exists.mp (get?_isSome.mpr ((second key).mpr member))
      rw [there, also]
      exact congrArg some (same key member value there found also)
    · rw [get?_eq_none fun there => member ((first key).mp there),
        get?_eq_none fun there => member ((second key).mp there)]

/-! ## Arrays and scalars -/

theorem canonicalItems_eq (items : List (Json φ)) : canonicalItems items = items.map canonical := by
  induction items with
  | nil => rfl
  | cons item items inductionHypothesis =>
    rw [canonicalItems_cons, inductionHypothesis, List.map_cons]

/-- Two arrays are the same where their items are. -/
theorem same_arr_iff {one other : List (Json φ)} :
    Same (.arr one) (.arr other) ↔ List.Forall₂ Same one other := by
  simp only [Same, canonical_arr, Json.arr.injEq, canonicalItems_eq]
  constructor
  · intro same
    induction one generalizing other with
    | nil =>
      cases other with
      | nil => exact List.Forall₂.nil
      | cons _ _ => cases same
    | cons item items inductionHypothesis =>
      cases other with
      | nil => cases same
      | cons found others =>
        obtain ⟨first, rest⟩ := List.cons.inj same
        exact List.Forall₂.cons first (inductionHypothesis rest)
  · intro related
    induction related with
    | nil => rfl
    | cons first _ inductionHypothesis => exact congrArg₂ List.cons first inductionHypothesis

theorem same_int_iff {value : Int} {other : Json φ} : Same (.int value) other ↔ other = .int value := by
  cases other <;> simp [Same, eq_comm]

theorem same_str_iff {value : String} {other : Json φ} :
    Same (.str value) other ↔ other = .str value := by
  cases other <;> simp [Same, eq_comm]

theorem same_null_iff {other : Json φ} : Same .null other ↔ other = .null := by
  cases other <;> simp [Same, eq_comm]

/-- What is the same as an object is an object. -/
theorem same_obj_cases {members : List (String × Json φ)} {other : Json φ}
    (same : Same (.obj members) other) : ∃ found, other = .obj found := by
  cases other with
  | obj found => exact ⟨found, rfl⟩
  | null | bool | int | float | str | arr => simp [Same] at same

theorem same_arr_cases {items : List (Json φ)} {other : Json φ} (same : Same (.arr items) other) :
    ∃ found, other = .arr found := by
  cases other with
  | arr found => exact ⟨found, rfl⟩
  | null | bool | int | float | str | obj => simp [Same] at same

end KvCache.Json
