import KvCache.ChunkClient.HostStore
import KvCache.Foundation.Traverse

/-!
# Accounting of the retained tensors

The tensors that were ever put into the dictionary are either in an entry and allocated, or
in none and released once. Stores, evictions, removals and the clearing of the dictionary
keep this, and change the bytes of its entries as they change a map bounded by recency.
-/

namespace KvCache.HostStore

open LruMap Traverse

universe u v
variable {Key : Type u} {Bytes : Type v}

/-! ## Releases -/

/-- Some tensors were deallocated and nothing else changed. -/
structure Freed (ids : List Nat) (before after : State Key Bytes) : Prop where
  heap : ∀ id, after.heap id =
    if id ∈ ids then { before.heap id with allocated := false } else before.heap id
  counted : ∀ id, after.released.count id = before.released.count id +
    if id ∈ ids ∧ (before.heap id).allocated = true then 1 else 0
  next : after.next = before.next
  hostStore : after.hostStore = before.hostStore
  kvCaches : after.kvCaches = before.kvCaches
  entered : after.entered = before.entered

theorem Freed.refl (state : State Key Bytes) : Freed [] state state :=
  ⟨by simp, by simp, rfl, rfl, rfl, rfl⟩

theorem Freed.trans {front back : List Nat} {first middle last : State Key Bytes}
    (early : Freed front first middle) (late : Freed back middle last) :
    Freed (front ++ back) first last where
  heap := fun id => by
    rw [late.heap, early.heap]
    by_cases inFront : id ∈ front <;> by_cases inBack : id ∈ back <;> simp [inFront, inBack]
  counted := fun id => by
    rw [late.counted, early.counted, early.heap]
    by_cases inFront : id ∈ front <;> by_cases inBack : id ∈ back <;> simp [inFront, inBack]
  next := late.next.trans early.next
  hostStore := late.hostStore.trans early.hostStore
  kvCaches := late.kvCaches.trans early.kvCaches
  entered := late.entered.trans early.entered

/-- The order in which tensors are freed does not matter. -/
theorem Freed.congr {front back : List Nat} {before after : State Key Bytes}
    (freed : Freed front before after) (same : ∀ id, id ∈ front ↔ id ∈ back) :
    Freed back before after where
  heap := fun id => by
    rw [freed.heap]
    simp only [same]
  counted := fun id => by
    rw [freed.counted]
    simp only [same]
  next := freed.next
  hostStore := freed.hostStore
  kvCaches := freed.kvCaches
  entered := freed.entered

theorem deallocate_freed (state : State Key Bytes) (id : Nat) :
    Freed [id] state (state.deallocate id) := by
  unfold State.deallocate
  by_cases live : (state.heap id).allocated = true
  · rw [if_pos live]
    refine ⟨fun other => ?_, fun other => ?_, rfl, rfl, rfl, rfl⟩
    · by_cases same : other = id
      · subst same
        simp
      · simp [same]
    · by_cases same : other = id
      · subst same
        simp [live]
      · simp [same, List.count_append, Ne.symm same]
  · rw [if_neg live]
    have dead : (state.heap id).allocated = false := by simpa using live
    refine ⟨fun other => ?_, fun other => ?_, rfl, rfl, rfl, rfl⟩
    · by_cases same : other = id
      · subst same
        simp [← dead]
      · simp [same]
    · by_cases same : other = id
      · subst same
        simp [dead]
      · simp [same]

theorem deallocateAll_freed (ids : List Nat) (state : State Key Bytes) :
    Freed ids state (state.deallocateAll ids) := by
  induction ids generalizing state with
  | nil => exact .refl state
  | cons id rest inductionHypothesis =>
    exact (deallocate_freed state id).trans (inductionHypothesis (state.deallocate id))

variable {cfg : Config Bytes}

/-- No cache of a layer is among some tensors. -/
def Config.NoCache (cfg : Config Bytes) (state : State Key Bytes) (ids : List Nat) : Prop :=
  ∀ layer < cfg.numLayers, (state.kvCaches layer).1 ∉ ids ∧ (state.kvCaches layer).2 ∉ ids

theorem Config.NoCache.isCache {state : State Key Bytes} {ids : List Nat}
    (apart : cfg.NoCache state ids) {id : Nat} (member : id ∈ ids) :
    cfg.isCache state id = false := by
  unfold Config.isCache
  rw [List.any_eq_false]
  intro layer inside same
  obtain ⟨kApart, vApart⟩ := apart layer (List.mem_range.mp inside)
  rcases Bool.or_eq_true_iff.mp same with k | v
  · exact kApart (beq_iff_eq.mp k ▸ member)
  · exact vApart (beq_iff_eq.mp v ▸ member)

theorem dropReferences_freed {state : State Key Bytes} {ids : List Nat}
    (apart : cfg.NoCache state ids) : Freed ids state (cfg.dropReferences ids state) := by
  have whole : ids.filter (fun id => !cfg.isCache state id) = ids :=
    List.filter_eq_self.mpr fun id member => by simp [apart.isCache member]
  rw [Config.dropReferences, whole]
  exact deallocateAll_freed ids state

theorem freeHostEntry_freed (entry : Entry) (state : State Key Bytes) :
    ∃ ids, (∀ id ∈ ids, id ∈ entry.ids) ∧ Freed ids state (freeHostEntry entry state) := by
  cases entry with
  | raw buffers => exact ⟨[], by simp, .refl state⟩
  | tensors kList vList => exact ⟨kList ++ vList, fun _ member => member, deallocateAll_freed _ _⟩

theorem discard_freed {state : State Key Bytes} {entry : Key × Entry}
    (apart : cfg.NoCache state entry.2.ids) :
    Freed entry.2.ids state (cfg.discard state entry) := by
  obtain ⟨ids, inside, freed⟩ := freeHostEntry_freed entry.2 state
  have later : cfg.NoCache (freeHostEntry entry.2 state) entry.2.ids := by
    unfold Config.NoCache
    rw [freed.kvCaches]
    exact apart
  refine (freed.trans (dropReferences_freed later)).congr fun id => ?_
  rw [List.mem_append]
  exact ⟨fun member => member.elim (inside id) fun here => here, .inr⟩

theorem foldl_discard_freed (entries : Entries Key Entry) {state : State Key Bytes}
    (apart : cfg.NoCache state (storeIds entries)) :
    Freed (storeIds entries) state (entries.foldl cfg.discard state) := by
  induction entries generalizing state with
  | nil => exact .refl state
  | cons entry rest inductionHypothesis =>
    have split : storeIds (entry :: rest) = entry.2.ids ++ storeIds rest := List.flatMap_cons
    have here : Freed entry.2.ids state (cfg.discard state entry) := by
      apply discard_freed
      intro layer inside
      obtain ⟨k, v⟩ := apart layer inside
      rw [split] at k v
      exact ⟨fun member => k (List.mem_append_left _ member),
        fun member => v (List.mem_append_left _ member)⟩
    have later : cfg.NoCache (cfg.discard state entry) (storeIds rest) := by
      intro layer inside
      obtain ⟨k, v⟩ := apart layer inside
      rw [here.kvCaches]
      rw [split] at k v
      exact ⟨fun member => k (List.mem_append_right _ member),
        fun member => v (List.mem_append_right _ member)⟩
    rw [split]
    exact here.trans (inductionHypothesis later)

/-! ## Accounting -/

/-- The tensors that entered the dictionary are those owned now, which are allocated, and
others, which are not; the log has every tensor that is not allocated once. -/
structure Config.Accounted (cfg : Config Bytes) (state : State Key Bytes) (owned : List Nat) :
    Prop where
  distinct : owned.Nodup
  entered : ∀ id ∈ owned, id ∈ state.entered
  live : ∀ id ∈ state.entered, id < state.next ∧ ((state.heap id).allocated = true ↔ id ∈ owned)
  logged : ∀ id, state.released.count id =
    if id < state.next ∧ (state.heap id).allocated = false then 1 else 0
  caches : ∀ layer < cfg.numLayers,
    ((state.kvCaches layer).1 < state.next ∧ (state.kvCaches layer).1 ∉ state.entered) ∧
      (state.kvCaches layer).2 < state.next ∧ (state.kvCaches layer).2 ∉ state.entered

variable {state : State Key Bytes} {owned : List Nat}

theorem Config.Accounted.noCache (accounted : cfg.Accounted state owned) {ids : List Nat}
    (inside : ∀ id ∈ ids, id ∈ owned) : cfg.NoCache state ids := by
  intro layer bounded
  obtain ⟨⟨-, k⟩, -, v⟩ := accounted.caches layer bounded
  exact ⟨fun member => k (accounted.entered _ (inside _ member)),
    fun member => v (accounted.entered _ (inside _ member))⟩

theorem Config.Accounted.perm (accounted : cfg.Accounted state owned) {other : List Nat}
    (same : owned.Perm other) : cfg.Accounted state other where
  distinct := same.nodup_iff.mp accounted.distinct
  entered := fun id member => accounted.entered id (same.mem_iff.mpr member)
  live := fun id member =>
    ⟨(accounted.live id member).1, (accounted.live id member).2.trans same.mem_iff⟩
  logged := accounted.logged
  caches := accounted.caches

/-- The log after some tensors below the next number are freed. -/
theorem Freed.logged {ids : List Nat} {after : State Key Bytes} (freed : Freed ids state after)
    (below : ∀ id ∈ ids, id < state.next)
    (logged : ∀ id, state.released.count id =
      if id < state.next ∧ (state.heap id).allocated = false then 1 else 0) (id : Nat) :
    after.released.count id =
      if id < after.next ∧ (after.heap id).allocated = false then 1 else 0 := by
  rw [freed.counted, logged, freed.next, freed.heap]
  by_cases member : id ∈ ids
  · have bounded := below id member
    cases (state.heap id).allocated <;> simp [member, bounded]
  · simp [member]

/-- Freeing some of the owned tensors leaves the others owned. -/
theorem Config.Accounted.freed {kept gone : List Nat} {after : State Key Bytes}
    (accounted : cfg.Accounted state (kept ++ gone)) (freed : Freed gone state after) :
    cfg.Accounted after kept := by
  obtain ⟨keptDistinct, -, apart⟩ := List.nodup_append.mp accounted.distinct
  refine ⟨keptDistinct, fun id member => ?_, fun id member => ?_, ?_, ?_⟩
  · rw [freed.entered]
    exact accounted.entered id (List.mem_append_left _ member)
  · rw [freed.entered] at member
    obtain ⟨bounded, owner⟩ := accounted.live id member
    rw [freed.next, freed.heap]
    refine ⟨bounded, ?_⟩
    by_cases dropped : id ∈ gone
    · have absent : id ∉ kept := fun present => apart id present id dropped rfl
      simp [dropped, absent]
    · rw [if_neg dropped, owner, List.mem_append]
      simp [dropped]
  · exact freed.logged (fun id member =>
      (accounted.live id (accounted.entered id (List.mem_append_right _ member))).1)
      accounted.logged
  · rw [freed.kvCaches, freed.next, freed.entered]
    exact accounted.caches

/-- Freeing tensors that never entered the dictionary leaves the owned ones. -/
theorem Config.Accounted.freedOutside {ids : List Nat} {after : State Key Bytes}
    (accounted : cfg.Accounted state owned) (freed : Freed ids state after)
    (outside : ∀ id ∈ ids, id < state.next ∧ id ∉ state.entered) : cfg.Accounted after owned := by
  refine ⟨accounted.distinct, ?_, fun id member => ?_, ?_, ?_⟩
  · rw [freed.entered]
    exact accounted.entered
  · rw [freed.entered] at member
    have untouched : id ∉ ids := fun present => (outside id present).2 member
    rw [freed.next, freed.heap, if_neg untouched]
    exact accounted.live id member
  · exact freed.logged (fun id member => (outside id member).1) accounted.logged
  · rw [freed.kvCaches, freed.next, freed.entered]
    exact accounted.caches

/-! ## Allocation -/

theorem allocate_old (contents : List Bytes) (onDevice : Bool) (state : State Key Bytes) {id : Nat}
    (old : id < state.next) :
    (state.allocate contents onDevice).2.heap id = state.heap id := by
  simp only [State.allocate]
  split
  · rw [if_neg (by omega)]
  · rfl

theorem allocate_fresh (contents : List Bytes) (onDevice : Bool) (state : State Key Bytes)
    {offset : Nat} {content : Bytes} (numbered : contents[offset]? = some content) :
    (state.allocate contents onDevice).2.heap (state.next + offset) =
      ⟨content, onDevice, true⟩ := by
  simp only [State.allocate, Nat.add_sub_cancel_left, numbered]
  rw [if_pos (Nat.le_add_right _ _)]

theorem allocate_beyond (contents : List Bytes) (onDevice : Bool) (state : State Key Bytes)
    {id : Nat} (beyond : state.next + contents.length ≤ id) :
    (state.allocate contents onDevice).2.heap id = state.heap id := by
  have absent : contents[id - state.next]? = none := List.getElem?_eq_none_iff.mpr (by omega)
  simp only [State.allocate, absent]

/-- The new tensors hold their contents and are where they were put. -/
theorem allocate_live (contents : List Bytes) (onDevice : Bool) (state : State Key Bytes)
    {id : Nat} (member : id ∈ (state.allocate contents onDevice).1) :
    ((state.allocate contents onDevice).2.heap id).allocated = true ∧
      ((state.allocate contents onDevice).2.heap id).onDevice = onDevice ∧
      state.next ≤ id ∧ id < state.next + contents.length := by
  obtain ⟨lower, upper⟩ := List.mem_range'_1.mp member
  obtain ⟨offset, rfl⟩ := Nat.exists_eq_add_of_le lower
  have numbered : contents[offset]? = some contents[offset] :=
    List.getElem?_eq_getElem (by omega)
  rw [allocate_fresh contents onDevice state numbered]
  exact ⟨rfl, rfl, lower, upper⟩

/-- Reading the new tensors gives their contents. -/
theorem read_allocated (contents : List Bytes) (onDevice : Bool) (state : State Key Bytes) :
    (state.allocate contents onDevice).2.read (state.allocate contents onDevice).1 =
      some contents := by
  have fetched : ∀ id ∈ (state.allocate contents onDevice).1,
      (if ((state.allocate contents onDevice).2.heap id).allocated then
        some ((state.allocate contents onDevice).2.heap id).content else none) =
      some ((state.allocate contents onDevice).2.heap id).content := by
    intro id member
    rw [if_pos (allocate_live contents onDevice state member).1]
  rw [State.read, mapM_defined _ _ _ fetched]
  congr 1
  apply List.ext_getElem
  · simp [State.allocate]
  · intro offset _ bounded
    have numbered : contents[offset]? = some contents[offset] :=
      List.getElem?_eq_getElem bounded
    have fresh := allocate_fresh contents onDevice state numbered
    simp only [State.allocate] at fresh
    simp only [State.allocate, List.getElem_map, List.getElem_range', Nat.one_mul]
    rw [fresh]

/-- New tensors leave the accounting of the dictionary as it is. -/
theorem Config.Accounted.allocate (accounted : cfg.Accounted state owned) (contents : List Bytes)
    (onDevice : Bool) : cfg.Accounted (state.allocate contents onDevice).2 owned := by
  have next : (state.allocate contents onDevice).2.next = state.next + contents.length := rfl
  have released : (state.allocate contents onDevice).2.released = state.released := rfl
  refine ⟨accounted.distinct, accounted.entered, fun id member => ?_, fun id => ?_,
    fun layer bounded => ?_⟩
  · obtain ⟨bounded, owner⟩ := accounted.live id member
    rw [next, allocate_old contents onDevice state bounded]
    exact ⟨by omega, owner⟩
  · rw [next, released, accounted.logged]
    by_cases old : id < state.next
    · have wide : id < state.next + contents.length := by omega
      simp only [allocate_old contents onDevice state old, old, wide, true_and]
    · by_cases fresh : id < state.next + contents.length
      · have member : id ∈ (state.allocate contents onDevice).1 :=
          List.mem_range'_1.mpr ⟨by omega, fresh⟩
        simp [old, (allocate_live contents onDevice state member).1]
      · simp [old, fresh]
  · obtain ⟨⟨kBelow, kOutside⟩, vBelow, vOutside⟩ := accounted.caches layer bounded
    have wider : ∀ id, id < state.next → id < (state.allocate contents onDevice).2.next :=
      fun id below => Nat.lt_add_right _ below
    exact ⟨⟨wider _ kBelow, kOutside⟩, wider _ vBelow, vOutside⟩

/-- Allocated tensors that are no caches may enter the dictionary. -/
theorem Config.Accounted.enter (accounted : cfg.Accounted state owned) {ids : List Nat}
    (distinct : ids.Nodup)
    (fresh : ∀ id ∈ ids, id < state.next ∧ (state.heap id).allocated = true ∧
      id ∉ state.entered) (apart : cfg.NoCache state ids) :
    cfg.Accounted { state with entered := state.entered ++ ids } (owned ++ ids) := by
  refine ⟨List.nodup_append.mpr ⟨accounted.distinct, distinct, ?_⟩, fun id member => ?_,
    fun id member => ?_, accounted.logged, fun layer bounded => ?_⟩
  · rintro id present _ here rfl
    exact (fresh id here).2.2 (accounted.entered id present)
  · rcases List.mem_append.mp member with old | new
    · exact List.mem_append_left _ (accounted.entered id old)
    · exact List.mem_append_right _ new
  · rcases List.mem_append.mp member with old | new
    · obtain ⟨bounded, owner⟩ := accounted.live id old
      refine ⟨bounded, owner.trans ?_⟩
      rw [List.mem_append]
      exact ⟨.inl, fun either => either.elim (fun here => here)
        fun here => absurd old (fresh id here).2.2⟩
    · obtain ⟨bounded, live, -⟩ := fresh id new
      exact ⟨bounded, fun _ => List.mem_append_right _ new, fun _ => live⟩
  · obtain ⟨⟨kBelow, kOutside⟩, vBelow, vOutside⟩ := accounted.caches layer bounded
    obtain ⟨kApart, vApart⟩ := apart layer bounded
    exact ⟨⟨kBelow, fun member => (List.mem_append.mp member).elim kOutside kApart⟩,
      vBelow, fun member => (List.mem_append.mp member).elim vOutside vApart⟩

/-! ## Entries -/

theorem read_congr {before after : State Key Bytes} {ids : List Nat}
    (same : ∀ id ∈ ids, after.heap id = before.heap id) : after.read ids = before.read ids :=
  mapM_congr fun id member => by rw [same id member]

/-- The bytes of an entry depend on its tensors only. -/
theorem contents_congr {before after : State Key Bytes} {entry : Entry}
    (same : ∀ id ∈ entry.ids, after.heap id = before.heap id) :
    after.contents entry = before.contents entry := by
  cases entry with
  | raw buffers =>
    have bytes : after.read buffers = before.read buffers := read_congr same
    simp only [State.contents, bytes]
  | tensors kList vList =>
    have k : after.read kList = before.read kList :=
      read_congr fun id member => same id (List.mem_append_left _ member)
    have v : after.read vList = before.read vList :=
      read_congr fun id member => same id (List.mem_append_right _ member)
    simp only [State.contents, k, v]

theorem mem_storeIds {entries : Entries Key Entry} {entry : Key × Entry} (member : entry ∈ entries)
    {id : Nat} (inside : id ∈ entry.2.ids) : id ∈ storeIds entries :=
  List.mem_flatMap.mpr ⟨entry, member, inside⟩

theorem storeIds_append (front back : Entries Key Entry) :
    storeIds (front ++ back) = storeIds front ++ storeIds back := List.flatMap_append

/-- The dictionary holds a map bounded by recency: the tensors are accounted for, and the
bytes of the entries are the values of the map. -/
structure Config.Good (cfg : Config Bytes) (state : State Key Bytes)
    (abstract : Entries Key (Stored Bytes)) : Prop where
  unique : Unique state.hostStore
  bounded : state.hostStore.length ≤ cfg.hostStoreCap
  accounted : cfg.Accounted state (storeIds state.hostStore)
  view : mapValues state.contents state.hostStore = mapValues some abstract
  placed : cfg.putOndev = false → ∀ id ∈ storeIds state.hostStore, (state.heap id).onDevice = false

variable {abstract : Entries Key (Stored Bytes)}

/-- A state whose tensors in the dictionary are unchanged holds the same map. -/
theorem Config.Good.congr (good : cfg.Good state abstract) {after : State Key Bytes}
    (accounted : cfg.Accounted after (storeIds state.hostStore))
    (hostStore : after.hostStore = state.hostStore)
    (heap : ∀ id ∈ storeIds state.hostStore, after.heap id = state.heap id) :
    cfg.Good after abstract := by
  refine ⟨hostStore ▸ good.unique, hostStore ▸ good.bounded, hostStore ▸ accounted, ?_, ?_⟩
  · rw [hostStore, ← good.view]
    exact mapValues_congr fun entry member =>
      contents_congr fun id inside => heap id (mem_storeIds member inside)
  · rw [hostStore]
    intro off id member
    rw [heap id member]
    exact good.placed off id member

theorem Config.Good.below (good : cfg.Good state abstract) {id : Nat}
    (member : id ∈ storeIds state.hostStore) : id < state.next :=
  (good.accounted.live id (good.accounted.entered id member)).1

theorem Config.Good.allocate (good : cfg.Good state abstract) (contents : List Bytes)
    (onDevice : Bool) : cfg.Good (state.allocate contents onDevice).2 abstract :=
  good.congr (good.accounted.allocate contents onDevice) rfl fun _ member =>
    allocate_old contents onDevice state (good.below member)

/-- New tensors have not entered the dictionary and are no caches. -/
theorem Config.Good.allocated_fresh (good : cfg.Good state abstract) (contents : List Bytes)
    (onDevice : Bool) {id : Nat} (member : id ∈ (state.allocate contents onDevice).1) :
    id ∉ state.entered ∧ ∀ layer < cfg.numLayers,
      (state.kvCaches layer).1 ≠ id ∧ (state.kvCaches layer).2 ≠ id := by
  obtain ⟨-, -, lower, -⟩ := allocate_live contents onDevice state member
  refine ⟨fun old => ?_, fun layer bounded => ?_⟩
  · have below := (good.accounted.live id old).1
    omega
  · obtain ⟨⟨k, -⟩, v, -⟩ := good.accounted.caches layer bounded
    omega

section Good

variable [DecidableEq Key]

/-- The tensors of the entry of a key. -/
def idsOf (key : Key) (entries : Entries Key Entry) : List Nat :=
  match entries.lookup key with
  | some old => old.ids
  | none => []

/-- The tensors of the dictionary are those of a key and those of other keys. -/
theorem storeIds_perm_erase {entries : Entries Key Entry} (unique : Unique entries) (key : Key) :
    (storeIds entries).Perm (storeIds (erase key entries) ++ idsOf key entries) := by
  unfold idsOf
  cases present : entries.lookup key with
  | none => rw [erase_absent present, List.append_nil]
  | some old =>
    have moved := (perm_erase unique present).flatMap_right fun entry => entry.2.ids
    have split : storeIds (append key old entries) = storeIds (erase key entries) ++ old.ids := by
      rw [append, storeIds_append]
      simp [storeIds]
    exact split ▸ moved

/-- Setting an entry whose tensors are accounted for inserts its bytes. -/
theorem putEntry_good {key : Key} {entry : Entry} {value : Stored Bytes} (unique : Unique state.hostStore)
    (accounted : cfg.Accounted state (storeIds state.hostStore ++ entry.ids))
    (view : mapValues state.contents state.hostStore = mapValues some abstract)
    (holds : state.contents entry = some value)
    (placed : cfg.putOndev = false →
      ∀ id ∈ storeIds state.hostStore ++ entry.ids, (state.heap id).onDevice = false) :
    cfg.Good (cfg.putEntry key entry state)
      (LruMap.insert cfg.hostStoreCap key value abstract) := by
  let gone := evicted cfg.hostStoreCap key entry state.hostStore
  let kept := LruMap.insert cfg.hostStoreCap key entry state.hostStore
  have appended : storeIds gone ++ storeIds kept =
      storeIds (erase key state.hostStore) ++ entry.ids := by
    have whole : gone ++ kept = append key entry state.hostStore :=
      evicted_append_insert cfg.hostStoreCap key entry state.hostStore
    rw [← storeIds_append, whole, append, storeIds_append]
    simp [storeIds]
  have owned : (storeIds state.hostStore ++ entry.ids).Perm
      (storeIds kept ++ (idsOf key state.hostStore ++ storeIds gone)) := by
    calc (storeIds state.hostStore ++ entry.ids).Perm
          ((storeIds (erase key state.hostStore) ++ idsOf key state.hostStore) ++ entry.ids) :=
        (storeIds_perm_erase unique key).append_right _
      _ |>.Perm (idsOf key state.hostStore ++
          (storeIds (erase key state.hostStore) ++ entry.ids)) := by
        rw [← List.append_assoc]
        exact List.perm_append_comm.append_right _
      _ |>.Perm (idsOf key state.hostStore ++ (storeIds gone ++ storeIds kept)) := by rw [appended]
      _ |>.Perm (storeIds kept ++ (idsOf key state.hostStore ++ storeIds gone)) := by
        rw [← List.append_assoc]
        exact List.perm_append_comm
  have reordered := accounted.perm owned
  -- the entry of the key goes first, then the least recent entries
  obtain ⟨replaced, replacedEq, oldFreed⟩ : ∃ replaced, (match state.hostStore.lookup key with
      | some old => cfg.dropReferences old.ids state
      | none => state) = replaced ∧ Freed (idsOf key state.hostStore) state replaced := by
    refine ⟨_, rfl, ?_⟩
    have apart : cfg.NoCache state (idsOf key state.hostStore) :=
      reordered.noCache fun id member => by simp [member]
    unfold idsOf at apart ⊢
    cases present : state.hostStore.lookup key with
    | none => exact .refl state
    | some old =>
      rw [present] at apart
      exact dropReferences_freed apart
  have goneFreed : Freed (storeIds gone) replaced (gone.foldl cfg.discard replaced) := by
    apply foldl_discard_freed
    unfold Config.NoCache
    rw [oldFreed.kvCaches]
    exact reordered.noCache fun id member => by simp [member]
  have freed := oldFreed.trans goneFreed
  have after := reordered.freed freed
  have untouched : ∀ id ∈ storeIds kept, (gone.foldl cfg.discard replaced).heap id = state.heap id := by
    intro id member
    obtain ⟨-, -, apart⟩ := List.nodup_append.mp reordered.distinct
    rw [freed.heap, if_neg fun dropped => apart id member id dropped rfl]
  have unfolded : cfg.putEntry key entry state =
      { gone.foldl cfg.discard replaced with hostStore := kept } := by
    rw [← replacedEq]
    rfl
  rw [unfolded]
  refine ⟨unique_insert unique _ _ _, length_insert _ _ _ _,
    ⟨after.distinct, after.entered, after.live, after.logged, after.caches⟩, ?_, fun off id member => ?_⟩
  · have same : ∀ entry ∈ kept, State.contents
        { gone.foldl cfg.discard replaced with hostStore := kept } entry.2 =
          state.contents entry.2 := fun entry member =>
      contents_congr fun id inside => untouched id (mem_storeIds member inside)
    rw [mapValues_congr same, mapValues_insert, view, holds, mapValues_insert]
  · dsimp only at member ⊢
    rw [untouched id member]
    apply placed off
    exact owned.mem_iff.mpr (List.mem_append_left _ member)

/-- Storing an entry of new tensors inserts their bytes. -/
theorem Config.Good.putFresh (good : cfg.Good state abstract) (key : Key) {entry : Entry}
    {value : Stored Bytes} (distinct : entry.ids.Nodup)
    (fresh : ∀ id ∈ entry.ids, id < state.next ∧ (state.heap id).allocated = true ∧
      id ∉ state.entered) (apart : cfg.NoCache state entry.ids)
    (holds : state.contents entry = some value)
    (placed : cfg.putOndev = false → ∀ id ∈ entry.ids, (state.heap id).onDevice = false) :
    cfg.Good (cfg.putEntry key entry { state with entered := state.entered ++ entry.ids })
      (LruMap.insert cfg.hostStoreCap key value abstract) := by
  refine putEntry_good good.unique (good.accounted.enter distinct fresh apart) good.view holds ?_
  intro off id member
  exact (List.mem_append.mp member).elim (good.placed off id) (placed off id)

/-- Storing raw buffers inserts them. -/
theorem Config.Good.putChunkRaw (good : cfg.Good state abstract) (key : Key)
    (buffers : List Bytes) : cfg.Good (cfg.putChunkRaw key buffers state)
      (LruMap.insert cfg.hostStoreCap key (.raw buffers) abstract) := by
  have live := fun id (member : id ∈ (state.allocate buffers false).1) =>
    allocate_live buffers false state member
  have outside := fun id (member : id ∈ (state.allocate buffers false).1) =>
    good.allocated_fresh buffers false member
  change cfg.Good (cfg.putEntry key (.raw (state.allocate buffers false).1) _) _
  apply (good.allocate buffers false).putFresh key
  · exact List.nodup_range'
  · exact fun id member => ⟨(live id member).2.2.2, (live id member).1, (outside id member).1⟩
  · intro layer bounded
    exact ⟨fun member => ((outside _ member).2 layer bounded).1 rfl,
      fun member => ((outside _ member).2 layer bounded).2 rfl⟩
  · exact congrArg (Option.map Stored.raw) (read_allocated buffers false state)
  · exact fun _ id member => (live id member).2.1

/-- Storing the slices of the layers inserts them. -/
theorem Config.Good.putChunkCoalesced (good : cfg.Good state abstract) (key : Key)
    {layers : List (Bytes × Bytes)} (some_layer : layers.length ≠ 0) :
    cfg.Good (cfg.putChunkCoalesced key layers state)
      (LruMap.insert cfg.hostStoreCap key
        (.tensors (layers.map Prod.fst) (layers.map Prod.snd)) abstract) := by
  rw [Config.putChunkCoalesced, if_neg some_layer]
  let kAllocated := (state.allocate (layers.map Prod.fst) cfg.putOndev).2
  let kIds := (state.allocate (layers.map Prod.fst) cfg.putOndev).1
  let allocated := (kAllocated.allocate (layers.map Prod.snd) cfg.putOndev).2
  let vIds := (kAllocated.allocate (layers.map Prod.snd) cfg.putOndev).1
  have kGood : cfg.Good kAllocated abstract := good.allocate _ _
  have vGood : cfg.Good allocated abstract := kGood.allocate _ _
  have kLive := fun id (member : id ∈ kIds) => allocate_live (layers.map Prod.fst) cfg.putOndev state member
  have vLive := fun id (member : id ∈ vIds) =>
    allocate_live (layers.map Prod.snd) cfg.putOndev kAllocated member
  have kNext : kAllocated.next = state.next + (layers.map Prod.fst).length := rfl
  have next : allocated.next = kAllocated.next + (layers.map Prod.snd).length := rfl
  have kKept : ∀ id ∈ kIds, allocated.heap id = kAllocated.heap id := fun id member =>
    allocate_old _ _ _ (by rw [kNext]; exact (kLive id member).2.2.2)
  have kOutside := fun id (member : id ∈ kIds) => good.allocated_fresh (layers.map Prod.fst) cfg.putOndev member
  have vOutside := fun id (member : id ∈ vIds) =>
    kGood.allocated_fresh (layers.map Prod.snd) cfg.putOndev member
  change cfg.Good (cfg.putEntry key (.tensors kIds vIds)
    { allocated with entered := allocated.entered ++ (Entry.tensors kIds vIds).ids }) _
  apply vGood.putFresh key
  · refine List.nodup_append.mpr ⟨List.nodup_range', List.nodup_range', ?_⟩
    rintro id inK _ inV rfl
    have upper := (kLive id inK).2.2.2
    have lower := (vLive id inV).2.2.1
    rw [kNext] at lower
    omega
  · intro id member
    rcases List.mem_append.mp member with inK | inV
    · refine ⟨?_, ?_, (kOutside id inK).1⟩
      · have upper := (kLive id inK).2.2.2
        rw [next, kNext]
        omega
      · rw [kKept id inK]
        exact (kLive id inK).1
    · exact ⟨(vLive id inV).2.2.2, (vLive id inV).1, (vOutside id inV).1⟩
  · intro layer bounded
    constructor
    · intro member
      exact (List.mem_append.mp member).elim
        (fun inK => ((kOutside _ inK).2 layer bounded).1 rfl)
        fun inV => ((vOutside _ inV).2 layer bounded).1 rfl
    · intro member
      exact (List.mem_append.mp member).elim
        (fun inK => ((kOutside _ inK).2 layer bounded).2 rfl)
        fun inV => ((vOutside _ inV).2 layer bounded).2 rfl
  · have k : allocated.read kIds = some (layers.map Prod.fst) :=
      (read_congr kKept).trans (read_allocated _ _ state)
    have v : allocated.read vIds = some (layers.map Prod.snd) := read_allocated _ _ kAllocated
    simp only [State.contents, k, v, Option.bind_some, Option.map_some]
  · intro off id member
    rcases List.mem_append.mp member with inK | inV
    · rw [kKept id inK, (kLive id inK).2.1, off]
    · rw [(vLive id inV).2.1, off]

/-- A lookup finds the entry whose bytes the map has. -/
theorem Config.Good.lookup (good : cfg.Good state abstract) (key : Key) :
    (state.hostStore.lookup key).map state.contents = (abstract.lookup key).map some := by
  have same := congrArg (fun entries => List.lookup key entries) good.view
  simpa only [lookup_mapValues] using same

/-- Dropping the entry of a key removes it from the map. -/
theorem Config.Good.delete (good : cfg.Good state abstract) (key : Key) :
    (cfg.delete key state).1 = (abstract.lookup key).isSome ∧
      cfg.Good (cfg.delete key state).2 (erase key abstract) := by
  have found := good.lookup key
  have order := storeIds_perm_erase good.unique key
  unfold Config.delete
  unfold idsOf at order
  cases present : state.hostStore.lookup key with
  | none =>
    rw [present] at found
    have absent : abstract.lookup key = none := by simpa using found.symm
    rw [absent, erase_absent absent]
    exact ⟨rfl, good⟩
  | some old =>
    rw [present] at found order
    have known : (abstract.lookup key).isSome = true := by
      cases other : abstract.lookup key with
      | none => simp [other] at found
      | some value => rfl
    have reordered := good.accounted.perm order
    have freed := dropReferences_freed (reordered.noCache fun id member =>
      List.mem_append_right _ member : cfg.NoCache state old.ids)
    have after := reordered.freed freed
    have untouched : ∀ id ∈ storeIds (erase key state.hostStore),
        (cfg.dropReferences old.ids state).heap id = state.heap id := by
      intro id member
      obtain ⟨-, -, apart⟩ := List.nodup_append.mp reordered.distinct
      rw [freed.heap, if_neg fun dropped => apart id member id dropped rfl]
    refine ⟨known.symm, unique_erase good.unique key, ?_,
      ⟨after.distinct, after.entered, after.live, after.logged, after.caches⟩, ?_,
      fun off id member => ?_⟩
    · exact Nat.le_trans (List.length_filter_le _ _) good.bounded
    · have same : ∀ entry ∈ erase key state.hostStore, State.contents
          { cfg.dropReferences old.ids state with hostStore := erase key state.hostStore } entry.2 =
            state.contents entry.2 := fun entry member =>
        contents_congr fun id inside => untouched id (mem_storeIds member inside)
      rw [mapValues_congr same, mapValues_erase, good.view, mapValues_erase]
    · dsimp only at member ⊢
      rw [untouched id member]
      exact good.placed off id (order.mem_iff.mpr (List.mem_append_left _ member))

omit [DecidableEq Key] in
/-- Freeing the dictionary empties the map. -/
theorem Config.Good.freeHostStore (good : cfg.Good state abstract) :
    cfg.Good (cfg.freeHostStore state) [] := by
  have freed : Freed (storeIds state.hostStore) state (state.hostStore.foldl cfg.discard state) :=
    foldl_discard_freed _ (good.accounted.noCache fun _ member => member)
  have after : cfg.Accounted (state.hostStore.foldl cfg.discard state) [] :=
    Config.Accounted.freed (by simpa using good.accounted) freed
  exact ⟨List.nodup_nil, Nat.zero_le _,
    ⟨after.distinct, after.entered, after.live, after.logged, after.caches⟩, rfl,
    fun _ _ member => by cases member⟩

/-- A touch keeps the entries and their bytes. -/
theorem Config.Good.touch (good : cfg.Good state abstract) (key : Key) :
    cfg.Good { state with hostStore := LruMap.touch key state.hostStore }
      (LruMap.touch key abstract) := by
  have order : (storeIds state.hostStore).Perm (storeIds (LruMap.touch key state.hostStore)) :=
    (perm_touch good.unique key).symm.flatMap_right fun entry : Key × Entry => entry.2.ids
  have after := good.accounted.perm order
  refine ⟨unique_touch good.unique key, ?_,
    ⟨after.distinct, after.entered, after.live, after.logged, after.caches⟩, ?_,
    fun off id member => good.placed off id (order.mem_iff.mpr member)⟩
  · rw [(perm_touch good.unique key).length_eq]
    exact good.bounded
  · have same : ∀ entry ∈ LruMap.touch key state.hostStore, State.contents
        { state with hostStore := LruMap.touch key state.hostStore } entry.2 =
          state.contents entry.2 := fun _ _ => contents_congr fun _ _ => rfl
    rw [mapValues_congr same, mapValues_touch, good.view, mapValues_touch]

end Good

end KvCache.HostStore
