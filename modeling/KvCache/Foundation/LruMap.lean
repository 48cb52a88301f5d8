import Mathlib.Data.List.Nodup
import Mathlib.Data.List.Perm.Basic

/-!
# Maps bounded by recency

A map is the list of its entries in the order of their last use, the least recent first.
An insertion makes its entry the most recent and evicts the least recent entries above the
capacity. A touch makes an entry the most recent without changing it.

Keys and values are parameters. All operations commute with a map on the values.
-/

namespace KvCache.LruMap

universe u v w
variable {κ : Type u} {α : Type v} {β : Type w}

/-- Entries, the least recently used first. -/
abbrev Entries (κ : Type u) (α : Type v) := List (κ × α)

/-- Every key has at most one entry. -/
def Unique (entries : Entries κ α) : Prop := (entries.map Prod.fst).Nodup

/-- Apply a function to the values. -/
def mapValues (f : α → β) (entries : Entries κ α) : Entries κ β :=
  entries.map fun entry => (entry.1, f entry.2)

/-- Functions that agree on the values map them alike. -/
theorem mapValues_congr {f g : α → β} {entries : Entries κ α}
    (same : ∀ entry ∈ entries, f entry.2 = g entry.2) : mapValues f entries = mapValues g entries :=
  List.map_congr_left fun entry member => by rw [same entry member]

variable [DecidableEq κ]

/-- Remove a key. -/
def erase (key : κ) (entries : Entries κ α) : Entries κ α := entries.filter (·.1 ≠ key)

/-- Make a value the most recent one. -/
def append (key : κ) (value : α) (entries : Entries κ α) : Entries κ α :=
  erase key entries ++ [(key, value)]

/-- The entries that an insertion evicts. -/
def evicted (capacity : Nat) (key : κ) (value : α) (entries : Entries κ α) : Entries κ α :=
  (append key value entries).take ((append key value entries).length - capacity)

/-- The entries that remain after an insertion. -/
def insert (capacity : Nat) (key : κ) (value : α) (entries : Entries κ α) : Entries κ α :=
  (append key value entries).drop ((append key value entries).length - capacity)

/-- Make a key the most recently used one, if it has an entry. -/
def touch (key : κ) (entries : Entries κ α) : Entries κ α :=
  match entries.lookup key with
  | some value => append key value entries
  | none => entries

/-! ## Bounds and keys -/

theorem length_insert (capacity : Nat) (key : κ) (value : α) (entries : Entries κ α) :
    (insert capacity key value entries).length ≤ capacity := by
  simp only [insert, List.length_drop]
  omega

/-- An insertion splits the entries into those evicted and those kept. -/
theorem evicted_append_insert (capacity : Nat) (key : κ) (value : α) (entries : Entries κ α) :
    evicted capacity key value entries ++ insert capacity key value entries =
      append key value entries := List.take_append_drop _ _

theorem unique_erase {entries : Entries κ α} (unique : Unique entries) (key : κ) :
    Unique (erase key entries) := unique.sublist (List.filter_sublist.map _)

theorem unique_append {entries : Entries κ α} (unique : Unique entries) (key : κ) (value : α) :
    Unique (append key value entries) := by
  unfold Unique append
  rw [List.map_append]
  refine List.Nodup.append (unique_erase unique key) (List.nodup_singleton _) ?_
  intro other present here
  obtain ⟨entry, member, rfl⟩ := List.mem_map.mp present
  have same : entry.1 = key := by simpa using here
  simp [erase, same] at member

theorem unique_insert {entries : Entries κ α} (unique : Unique entries) (capacity : Nat) (key : κ)
    (value : α) : Unique (insert capacity key value entries) :=
  (unique_append unique key value).sublist ((List.drop_sublist _ _).map _)

theorem erase_absent {entries : Entries κ α} {key : κ} (absent : entries.lookup key = none) :
    erase key entries = entries := by
  apply List.filter_eq_self.mpr
  intro entry member
  have differ := List.lookup_eq_none_iff.mp absent entry member
  simp only [ne_eq, decide_not, Bool.not_eq_true', decide_eq_false_iff_not]
  rintro rfl
  simp at differ

/-- The entries are the one of a key and those of other keys. -/
theorem perm_erase {entries : Entries κ α} (unique : Unique entries) {key : κ} {value : α}
    (present : entries.lookup key = some value) : entries.Perm (append key value entries) := by
  induction entries with
  | nil => cases present
  | cons entry rest inductionHypothesis =>
    obtain ⟨first, held⟩ := entry
    obtain ⟨fresh, uniqueRest⟩ := List.nodup_cons.mp unique
    by_cases here : first = key
    · subst here
      have found : held = value := by simpa using present
      subst found
      have untouched : erase first rest = rest := by
        apply erase_absent
        apply List.lookup_eq_none_iff.mpr
        intro other member
        rw [bne_iff_ne]
        intro same
        exact fresh (List.mem_map.mpr ⟨other, member, same.symm⟩)
      have moved : append first held ((first, held) :: rest) = rest ++ [(first, held)] := by
        simp [append, erase] at untouched ⊢
        exact untouched
      rw [moved]
      exact (List.perm_append_singleton _ _).symm
    · have deeper : rest.lookup key = some value := by
        simpa [List.lookup_cons, beq_eq_false_iff_ne.mpr (Ne.symm here)] using present
      have moved : append key value ((first, held) :: rest) =
          (first, held) :: append key value rest := by
        simp [append, erase, here]
      rw [moved]
      exact (inductionHypothesis uniqueRest deeper).cons _

/-- A touch permutes the entries. -/
theorem perm_touch {entries : Entries κ α} (unique : Unique entries) (key : κ) :
    (touch key entries).Perm entries := by
  unfold touch
  cases present : entries.lookup key with
  | none => exact .refl _
  | some value => exact (perm_erase unique present).symm

theorem unique_touch {entries : Entries κ α} (unique : Unique entries) (key : κ) :
    Unique (touch key entries) :=
  ((perm_touch unique key).map Prod.fst).nodup_iff.mpr unique

/-! ## Maps on the values -/

section Values

variable (f : α → β) (key : κ) (entries : Entries κ α)

theorem lookup_mapValues : (mapValues f entries).lookup key = (entries.lookup key).map f := by
  induction entries with
  | nil => rfl
  | cons entry rest inductionHypothesis =>
    obtain ⟨name, value⟩ := entry
    simp only [mapValues, List.map_cons, List.lookup_cons] at inductionHypothesis ⊢
    cases key == name
    · exact inductionHypothesis
    · rfl

theorem mapValues_erase : mapValues f (erase key entries) = erase key (mapValues f entries) := by
  simp only [mapValues, erase, List.filter_map]
  rfl

theorem mapValues_append (value : α) :
    mapValues f (append key value entries) = append key (f value) (mapValues f entries) := by
  have erased := mapValues_erase f key entries
  simp only [mapValues, append, List.map_append] at erased ⊢
  rw [erased]
  rfl

theorem mapValues_insert (capacity : Nat) (value : α) :
    mapValues f (insert capacity key value entries) =
      insert capacity key (f value) (mapValues f entries) := by
  have appended := mapValues_append f key entries value
  have width : (append key (f value) (mapValues f entries)).length =
      (append key value entries).length := by
    rw [← appended, mapValues, List.length_map]
  unfold insert
  rw [width, ← appended]
  exact List.map_drop

theorem mapValues_touch : mapValues f (touch key entries) = touch key (mapValues f entries) := by
  unfold touch
  rw [lookup_mapValues]
  cases entries.lookup key with
  | none => rfl
  | some value => exact mapValues_append f key entries value

end Values

end KvCache.LruMap
