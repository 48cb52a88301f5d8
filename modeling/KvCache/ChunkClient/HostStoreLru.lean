import KvCache.ChunkClient.HostStoreAccounts
import KvCache.Foundation.Run
import Mathlib

/-!
# The dictionary as a map bounded by recency

A restore of tensors that are on the device deallocates the tensors of the entry, or makes
them the caches of the model, which the next restore deallocates. Without such a restore
every run is one of a map bounded by recency, whose hits return the bytes of the last
store.
-/

namespace KvCache.HostStore

open LruMap Run Traverse

universe u v
variable {Key : Type u} {Bytes : Type v} {cfg : Config Bytes} {state : State Key Bytes}
  {abstract : Entries Key (Stored Bytes)}

/-! ## Restores -/

/-- Writing into the caches leaves the dictionary as it is. -/
theorem Config.Good.writeCaches (good : cfg.Good state abstract) {layer : Nat}
    (bounded : layer < cfg.numLayers) (blocks : List (Bytes × Bytes)) :
    cfg.Good (cfg.writeCaches layer blocks state) abstract := by
  obtain ⟨⟨-, kOutside⟩, -, vOutside⟩ := good.accounted.caches layer bounded
  have allocated : ∀ id, ((cfg.writeCaches layer blocks state).heap id).allocated =
      (state.heap id).allocated := by
    intro id
    simp only [Config.writeCaches]
    split
    · rfl
    · split <;> rfl
  have accounted := good.accounted
  refine good.congr ⟨accounted.distinct, accounted.entered, fun id member => ?_, fun id => ?_,
    accounted.caches⟩ rfl fun id member => ?_
  · rw [allocated]
    exact accounted.live id member
  · rw [allocated]
    exact accounted.logged id
  · have entered := accounted.entered id member
    have notK : id ≠ (state.kvCaches layer).1 := fun same => kOutside (same ▸ entered)
    have notV : id ≠ (state.kvCaches layer).2 := fun same => vOutside (same ▸ entered)
    simp only [Config.writeCaches, if_neg notK, if_neg notV]

/-- Tensors of the dictionary can be read. -/
theorem Config.Good.read (good : cfg.Good state abstract) (ids : List Nat)
    (inside : ∀ id ∈ ids, id ∈ storeIds state.hostStore) :
    ∃ bytes, state.read ids = some bytes := by
  refine ⟨_, mapM_defined _ (fun id => (state.heap id).content) ids fun id member => ?_⟩
  have live := (good.accounted.live id (good.accounted.entered id (inside id member))).2.mpr
    (inside id member)
  rw [if_pos live]

/-- Where slices are not on the device, a fill reads copies and succeeds. -/
theorem Config.Good.pagedFill (good : cfg.Good state abstract) {layer : Nat}
    (bounded : layer < cfg.numLayers) (blocks : List (Nat × Nat))
    (inside : ∀ block ∈ blocks, block.1 ∈ storeIds state.hostStore ∧
      block.2 ∈ storeIds state.hostStore) (off : blocks ≠ [] → cfg.putOndev = false) :
    (cfg.pagedFillLayerCoalesced layer blocks state).2 = true ∧
      cfg.Good (cfg.pagedFillLayerCoalesced layer blocks state).1 abstract ∧
      (cfg.pagedFillLayerCoalesced layer blocks state).1.hostStore = state.hostStore := by
  obtain ⟨kBytes, k⟩ := good.read (blocks.map Prod.fst) fun id member => by
    obtain ⟨block, listed, rfl⟩ := List.mem_map.mp member
    exact (inside block listed).1
  obtain ⟨vBytes, v⟩ := good.read (blocks.map Prod.snd) fun id member => by
    obtain ⟨block, listed, rfl⟩ := List.mem_map.mp member
    exact (inside block listed).2
  unfold Config.pagedFillLayerCoalesced
  dsimp only
  rw [k, v]
  cases blocks with
  | nil => exact ⟨rfl, good, rfl⟩
  | cons first rest =>
    have copied : (state.heap first.1).onDevice = false :=
      good.placed (off (by simp)) first.1 (inside first List.mem_cons_self).1
    dsimp only
    rw [copied, Bool.and_false, if_neg Bool.false_ne_true]
    exact ⟨rfl, good.writeCaches bounded _, rfl⟩

theorem mem_layerBlocks {layer : Nat} {found : List Entry} {block : Nat × Nat}
    (member : block ∈ layerBlocks layer found) :
    ∃ entry ∈ found, block.1 ∈ entry.ids ∧ block.2 ∈ entry.ids := by
  obtain ⟨entry, listed, cut⟩ := List.mem_filterMap.mp member
  refine ⟨entry, listed, ?_⟩
  cases entry with
  | raw buffers => cases cut
  | tensors kList vList =>
    obtain ⟨k, inK, more⟩ := Option.bind_eq_some_iff.mp cut
    obtain ⟨v, inV, rfl⟩ := Option.map_eq_some_iff.mp more
    exact ⟨List.mem_append_left _ (List.mem_of_getElem? inK),
      List.mem_append_right _ (List.mem_of_getElem? inV)⟩

/-- The fill of all layers succeeds and leaves the dictionary as it is. -/
theorem Config.Good.fillLayers (good : cfg.Good state abstract) {found : List Entry}
    {layers : List Nat} (bounded : ∀ layer ∈ layers, layer < cfg.numLayers)
    (inside : ∀ entry ∈ found, ∀ id ∈ entry.ids, id ∈ storeIds state.hostStore)
    (off : found ≠ [] → cfg.putOndev = false) :
    (cfg.fillLayers found layers state).2 = true ∧
      cfg.Good (cfg.fillLayers found layers state).1 abstract := by
  induction layers generalizing state with
  | nil => exact ⟨rfl, good⟩
  | cons layer rest inductionHypothesis =>
    obtain ⟨succeeded, filled, hostStore⟩ := good.pagedFill
      (bounded layer List.mem_cons_self) (layerBlocks layer found)
      (fun block member => by
        obtain ⟨entry, listed, k, v⟩ := mem_layerBlocks member
        exact ⟨inside entry listed _ k, inside entry listed _ v⟩)
      (fun some_block => off fun none => some_block (by rw [none]; rfl))
    unfold Config.fillLayers
    split
    · rename_i after paired
      rw [paired] at filled hostStore
      refine inductionHypothesis filled (fun other member => bounded other (.tail _ member)) ?_
      rw [hostStore]
      exact inside
    · rename_i after paired
      rw [paired] at succeeded
      cases succeeded


/-- Caches of a layer that are new tensors leave the dictionary as it is. -/
theorem Config.Good.setCaches (good : cfg.Good state abstract) (layer : Nat) {k v : Nat}
    (kFresh : k < state.next ∧ k ∉ state.entered) (vFresh : v < state.next ∧ v ∉ state.entered) :
    cfg.Good { state with kvCaches := Function.update state.kvCaches layer (k, v) } abstract := by
  have accounted := good.accounted
  refine good.congr ⟨accounted.distinct, accounted.entered, accounted.live, accounted.logged,
    fun other bounded => ?_⟩ rfl fun _ _ => rfl
  dsimp only
  by_cases same : other = layer
  · subst same
    rw [Function.update_self]
    exact ⟨kFresh, vFresh⟩
  · rw [Function.update_of_ne same]
    exact accounted.caches other bounded

/-- Where slices are not on the device, the caches are replaced by copies. -/
theorem Config.Good.hostLayerToDevice (good : cfg.Good state abstract) {layer k v : Nat}
    (bounded : layer < cfg.numLayers) (kInside : k ∈ storeIds state.hostStore)
    (vInside : v ∈ storeIds state.hostStore) (off : cfg.putOndev = false) :
    (hostTtnnLayerToDevice layer k v state).2 = true ∧
      cfg.Good (hostTtnnLayerToDevice layer k v state).1 abstract ∧
      (hostTtnnLayerToDevice layer k v state).1.hostStore = state.hostStore := by
  let kDev := (state.kvCaches layer).1
  let vDev := (state.kvCaches layer).2
  let freed := (state.deallocate kDev).deallocate vDev
  obtain ⟨kOutside, vOutside⟩ := good.accounted.caches layer bounded
  have gone : Freed [kDev, vDev] state freed :=
    (deallocate_freed state kDev).trans (deallocate_freed _ vDev)
  have outside : ∀ id ∈ [kDev, vDev], id < state.next ∧ id ∉ state.entered := by
    intro id member
    rcases List.mem_cons.mp member with rfl | other
    · exact kOutside
    · rw [List.mem_singleton] at other
      subst other
      exact vOutside
  have kept : ∀ id ∈ storeIds state.hostStore, freed.heap id = state.heap id := by
    intro id member
    rw [gone.heap, if_neg fun listed =>
      (outside id listed).2 (good.accounted.entered id member)]
  have after : cfg.Good freed abstract :=
    good.congr (good.accounted.freedOutside gone outside) gone.hostStore kept
  have sameStore : freed.hostStore = state.hostStore := gone.hostStore
  obtain ⟨bytes, read⟩ := after.read [k, v] fun id member => by
    rw [sameStore]
    rcases List.mem_cons.mp member with rfl | other
    · exact kInside
    · rw [List.mem_singleton] at other
      subst other
      exact vInside
  have width : bytes.length = 2 := by
    simp only [State.read, List.mapM_cons, List.mapM_nil, Option.bind_eq_bind,
      Option.bind_eq_some_iff, Option.pure_def, Option.some.injEq] at read
    obtain ⟨_, -, _, ⟨_, -, _, rfl, rfl⟩, rfl⟩ := read
    rfl
  have copied : (freed.heap k).onDevice = false := by
    rw [kept k kInside]
    exact good.placed off k kInside
  have copies := after.allocate bytes true
  have fresh : ∀ offset < 2, freed.next + offset < (freed.allocate bytes true).2.next ∧
      freed.next + offset ∉ (freed.allocate bytes true).2.entered := by
    intro offset small
    have member : freed.next + offset ∈ (freed.allocate bytes true).1 :=
      List.mem_range'_1.mpr ⟨Nat.le_add_right _ _, by omega⟩
    have next : (freed.allocate bytes true).2.next = freed.next + bytes.length := rfl
    exact ⟨by omega, (after.allocated_fresh bytes true member).1⟩
  have unfolded : hostTtnnLayerToDevice layer k v state =
      ({ (freed.allocate bytes true).2 with
        kvCaches := Function.update (freed.allocate bytes true).2.kvCaches layer
          (freed.next, freed.next + 1) }, true) := by
    unfold hostTtnnLayerToDevice
    dsimp only
    rw [read]
    dsimp only
    rw [copied, if_neg Bool.false_ne_true]
  rw [unfolded]
  exact ⟨rfl, copies.setCaches layer (fresh 0 (by decide)) (fresh 1 (by decide)), sameStore⟩

/-- The replacement of all caches succeeds and leaves the dictionary as it is. -/
theorem Config.Good.replaceLayers (good : cfg.Good state abstract) {entry : Entry}
    {layers : List Nat} (bounded : ∀ layer ∈ layers, layer < cfg.numLayers)
    (inside : ∀ id ∈ entry.ids, id ∈ storeIds state.hostStore) (off : cfg.putOndev = false) :
    (replaceLayers entry layers state).2 = true ∧
      cfg.Good (replaceLayers entry layers state).1 abstract := by
  induction layers generalizing state with
  | nil => exact ⟨rfl, good⟩
  | cons layer rest inductionHypothesis =>
    have later := fun other (member : other ∈ rest) => bounded other (.tail _ member)
    unfold HostStore.replaceLayers
    split
    · exact inductionHypothesis good later inside
    · rename_i k v others blocks
      have member : (k, v) ∈ layerBlocks layer [entry] := by rw [blocks]; exact List.mem_cons_self
      obtain ⟨other, listed, kMember, vMember⟩ := mem_layerBlocks member
      rw [List.mem_singleton] at listed
      subst listed
      obtain ⟨succeeded, replaced, hostStore⟩ := good.hostLayerToDevice
        (bounded layer List.mem_cons_self) (inside k kMember) (inside v vMember) off
      split
      · rename_i after paired
        rw [paired] at replaced hostStore
        refine inductionHypothesis replaced later ?_
        rw [hostStore]
        exact inside
      · rename_i after paired
        rw [paired] at succeeded
        cases succeeded

/-- Scattering buffers leaves the dictionary as it is. -/
theorem Config.Good.writeAll (good : cfg.Good state abstract) {blocks : List (Bytes × Nat)}
    (bounded : ∀ block ∈ blocks, block.2 < cfg.numLayers) :
    cfg.Good (blocks.foldl
      (fun state (bytes, layer) => cfg.writeCaches layer [(bytes, bytes)] state) state) abstract := by
  induction blocks generalizing state with
  | nil => exact good
  | cons block rest inductionHypothesis =>
    exact inductionHypothesis (good.writeCaches (bounded block List.mem_cons_self) _)
      fun other member => bounded other (.tail _ member)

theorem range_bounded : ∀ layer ∈ List.range cfg.numLayers, layer < cfg.numLayers :=
  fun _ member => List.mem_range.mp member

section Runs

variable [DecidableEq Key] [DecidableEq Bytes]

/-- A lookup is one of the map: a hit returns its bytes, in tensors of the dictionary. -/
theorem Config.Good.getChunk (good : cfg.Good state abstract) (raw : Bool) (key : Key) :
    ∃ next, observe cfg.hostStoreCap abstract
        (state.gotEvent raw key (state.getChunk raw key).1) = some next ∧
      cfg.Good (state.getChunk raw key).2 next ∧
      ∀ entry, (state.getChunk raw key).1 = .hit entry →
        ((∃ buffers, entry = .raw buffers) ↔ raw = true) ∧
        state.hostStore.lookup key = some entry ∧
        ∀ id ∈ entry.ids, id ∈ storeIds (state.getChunk raw key).2.hostStore := by
  have found := good.lookup key
  have inside : ∀ entry, state.hostStore.lookup key = some entry →
      ∀ id ∈ entry.ids, id ∈ storeIds (LruMap.touch key state.hostStore) := by
    intro entry present id member
    obtain ⟨front, back, split, -⟩ := List.lookup_eq_some_iff.mp present
    have listed : (key, entry) ∈ LruMap.touch key state.hostStore :=
      (perm_touch good.unique key).mem_iff.mpr (by simp [split])
    exact mem_storeIds listed member
  cases present : state.hostStore.lookup key with
  | none =>
    rw [present] at found
    have absent : abstract.lookup key = none := by simpa using found.symm
    refine ⟨abstract, ?_, ?_, ?_⟩
    · simp [State.getChunk, present, State.gotEvent, observe, absent]
    · simpa [State.getChunk, present] using good
    · intro entry hit
      simp [State.getChunk, present] at hit
  | some entry =>
    rw [present] at found
    obtain ⟨value, known, holds⟩ : ∃ value, abstract.lookup key = some value ∧
        state.contents entry = some value := by
      cases known : abstract.lookup key with
      | none => simp [known] at found
      | some value =>
        rw [known] at found
        exact ⟨value, rfl, Option.some.inj found⟩
    have kind : value.isRaw = true ↔ ∃ buffers, entry = .raw buffers := by
      cases entry with
      | raw buffers =>
        obtain ⟨bytes, -, rfl⟩ := Option.map_eq_some_iff.mp holds
        simp [Stored.isRaw]
      | tensors kList vList =>
        obtain ⟨k, -, more⟩ := Option.bind_eq_some_iff.mp holds
        obtain ⟨v, -, rfl⟩ := Option.map_eq_some_iff.mp more
        simp [Stored.isRaw]
    have touched := good.touch key
    have inside := inside entry present
    cases entry with
    | raw buffers =>
      have isRaw : value.isRaw = true := kind.mpr ⟨buffers, rfl⟩
      cases raw with
      | true =>
        refine ⟨LruMap.touch key abstract, ?_, ?_, ?_⟩
        · simp [State.getChunk, present, State.gotEvent, observe, holds, known]
        · simpa [State.getChunk, present] using touched
        · intro other hit
          simp only [State.getChunk, present, if_true, Got.hit.injEq] at hit ⊢
          subst hit
          exact ⟨by simp, rfl, inside⟩
      | false =>
        refine ⟨abstract, ?_, ?_, ?_⟩
        · simp [State.getChunk, present, State.gotEvent, observe, known, isRaw]
        · simpa [State.getChunk, present] using good
        · intro other hit
          simp [State.getChunk, present] at hit
    | tensors kList vList =>
      have isTensors : value.isRaw = false := by
        cases raw : value.isRaw with
        | false => rfl
        | true =>
          obtain ⟨buffers, impossible⟩ := kind.mp raw
          cases impossible
      cases raw with
      | false =>
        refine ⟨LruMap.touch key abstract, ?_, ?_, ?_⟩
        · simp [State.getChunk, present, State.gotEvent, observe, holds, known]
        · simpa [State.getChunk, present] using touched
        · intro other hit
          simp only [State.getChunk, present, Bool.false_eq_true, if_false, Got.hit.injEq] at hit ⊢
          subst hit
          exact ⟨by simp, rfl, inside⟩
      | true =>
        refine ⟨abstract, ?_, ?_, ?_⟩
        · simp [State.getChunk, present, State.gotEvent, observe, known, isTensors]
        · simpa [State.getChunk, present] using good
        · intro other hit
          simp [State.getChunk, present] at hit

omit [DecidableEq Bytes] in
/-- A lookup keeps the tensors of the dictionary. -/
theorem Config.Good.getChunk_storeIds (good : cfg.Good state abstract) (raw : Bool) (key : Key)
    {id : Nat} (member : id ∈ storeIds state.hostStore) :
    id ∈ storeIds (state.getChunk raw key).2.hostStore := by
  have touched : id ∈ storeIds (LruMap.touch key state.hostStore) :=
    ((perm_touch good.unique key).flatMap_right fun entry : Key × Entry => entry.2.ids).mem_iff.mpr
      member
  unfold State.getChunk
  split
  · exact member
  · split
    · exact touched
    · exact member
  · split
    · exact member
    · exact touched

/-- No restore finds tensors that are on the device. -/
def Config.Quiet (cfg : Config Bytes) (state : State Key Bytes) (keys : List Key) : Prop :=
  cfg.putOndev = true → ∀ key ∈ keys, ∀ kList vList,
    state.hostStore.lookup key ≠ some (.tensors kList vList)

/-- Looking up a batch is a sequence of lookups of the map. -/
theorem Config.Good.getChunks (good : cfg.Good state abstract) {keys : List Key}
    (quiet : cfg.Quiet state keys) :
    ∃ next, accept (observe cfg.hostStoreCap) abstract (state.getChunks keys).2.2 = some next ∧
      cfg.Good (state.getChunks keys).2.1 next ∧
      (∀ id ∈ storeIds state.hostStore, id ∈ storeIds (state.getChunks keys).2.1.hostStore) ∧
      ∀ found, (state.getChunks keys).1 = some found →
        (∀ entry ∈ found, ∀ id ∈ entry.ids, id ∈ storeIds (state.getChunks keys).2.1.hostStore) ∧
        (found ≠ [] → cfg.putOndev = false) := by
  induction keys generalizing state abstract with
  | nil =>
    refine ⟨abstract, rfl, good, fun _ member => member, fun found present => ?_⟩
    cases present
    exact ⟨by simp, fun nonempty => absurd rfl nonempty⟩
  | cons key rest inductionHypothesis =>
    obtain ⟨next, observed, touched, hits⟩ := good.getChunk false key
    have kept := fun id (member : id ∈ storeIds state.hostStore) =>
      good.getChunk_storeIds false key member
    unfold State.getChunks
    split
    · rename_i after got
      rw [got] at observed touched kept
      refine ⟨next, ?_, touched, kept, fun found present => by cases present⟩
      simp [accept, observed]
    · rename_i after got
      rw [got] at observed touched kept
      have unchanged : after = state := by
        have second := congrArg Prod.snd got
        have first := congrArg Prod.fst got
        unfold State.getChunk at first second
        split at first
        · simpa [*] using second.symm
        · simp at first
        · simp at first
      subst unchanged
      obtain ⟨last, accepted, lastGood, lastKept, foundLater⟩ :=
        inductionHypothesis touched fun on other member => quiet on other (.tail _ member)
      refine ⟨last, ?_, lastGood, fun id member => lastKept id (kept id member), foundLater⟩
      simp [accept, observed, accepted]
    · rename_i entry after got
      rw [got] at observed touched kept hits
      obtain ⟨kind, present, inside⟩ := hits entry rfl
      have off : cfg.putOndev = false := by
        cases on : cfg.putOndev with
        | false => rfl
        | true =>
          cases entry with
          | raw buffers => simp at kind
          | tensors kList vList => exact absurd present (quiet on key List.mem_cons_self kList vList)
      obtain ⟨last, accepted, lastGood, lastKept, foundLater⟩ :=
        inductionHypothesis touched fun on => absurd (off.symm.trans on) Bool.false_ne_true
      refine ⟨last, ?_, lastGood, fun id member => lastKept id (kept id member),
        fun found listed => ?_⟩
      · simp [accept, observed, accepted]
      · obtain ⟨others, known, rfl⟩ := Option.map_eq_some_iff.mp listed
        refine ⟨fun other member id idMember => ?_, fun _ => off⟩
        rcases List.mem_cons.mp member with rfl | later
        · exact lastKept id (inside id idMember)
        · exact (foundLater others known).1 other later id idMember

/-- A batch of chunks stored as tensors is restored as the map says. -/
theorem Config.Good.batchedToGpu (good : cfg.Good state abstract) {keys : List Key}
    (quiet : cfg.Quiet state keys) :
    ∃ next, accept (observe cfg.hostStoreCap) abstract (cfg.batchedToGpu keys state).2 =
        some next ∧ cfg.Good (cfg.batchedToGpu keys state).1 next := by
  obtain ⟨next, accepted, after, -, founds⟩ := good.getChunks quiet
  unfold Config.batchedToGpu
  split
  · rename_i last events got
    rw [got] at accepted after
    exact ⟨next, accepted, after⟩
  · rename_i found last events got
    rw [got] at accepted after founds
    obtain ⟨inside, off⟩ := founds found rfl
    obtain ⟨succeeded, filled⟩ := after.fillLayers range_bounded inside off
    split
    · rename_i final paired
      rw [paired] at filled
      exact ⟨next, accepted, filled⟩
    · rename_i final paired
      rw [paired] at succeeded
      cases succeeded

/-- A batch of chunks stored as raw buffers is restored as the map says. -/
theorem Config.Good.batchedToGpuRaw (good : cfg.Good state abstract) (keys : List Key) :
    ∃ next, accept (observe cfg.hostStoreCap) abstract (cfg.batchedToGpuRaw keys state).2 =
        some next ∧ cfg.Good (cfg.batchedToGpuRaw keys state).1 next := by
  induction keys generalizing state abstract with
  | nil => exact ⟨abstract, rfl, good⟩
  | cons key rest inductionHypothesis =>
    obtain ⟨next, observed, touched, hits⟩ := good.getChunk true key
    unfold Config.batchedToGpuRaw
    split
    · rename_i after got
      rw [got] at observed touched
      exact ⟨next, by simp [accept, observed], touched⟩
    · rename_i after got
      rw [got] at observed touched
      obtain ⟨last, accepted, lastGood⟩ := inductionHypothesis touched
      exact ⟨last, by simp [accept, observed, accepted], lastGood⟩
    · rename_i entry after got
      rw [got] at observed touched hits
      obtain ⟨-, -, inside⟩ := hits entry rfl
      obtain ⟨bytes, read⟩ := touched.read entry.ids inside
      have scattered : cfg.Good (cfg.scatterChunk bytes after) next := by
        apply touched.writeAll
        intro block member
        have short := List.snd_lt_of_mem_zipIdx member
        simp only [List.length_take] at short
        omega
      obtain ⟨last, accepted, lastGood⟩ := inductionHypothesis scattered
      rw [read]
      exact ⟨last, by simp [accept, observed, accepted], lastGood⟩

/-- One chunk stored as tensors is restored as the map says. -/
theorem Config.Good.toGpu (good : cfg.Good state abstract) {key : Key}
    (quiet : cfg.Quiet state [key]) :
    ∃ next, accept (observe cfg.hostStoreCap) abstract (cfg.toGpu key state).2 = some next ∧
      cfg.Good (cfg.toGpu key state).1 next := by
  obtain ⟨next, observed, touched, hits⟩ := good.getChunk false key
  unfold Config.toGpu
  split
  · rename_i after got
    rw [got] at observed touched
    exact ⟨next, by simp [accept, observed], touched⟩
  · rename_i after got
    rw [got] at observed touched
    exact ⟨next, by simp [accept, observed], touched⟩
  · rename_i entry after got
    rw [got] at observed touched hits
    obtain ⟨kind, present, inside⟩ := hits entry rfl
    have off : cfg.putOndev = false := by
      cases on : cfg.putOndev with
      | false => rfl
      | true =>
        cases entry with
        | raw buffers => simp at kind
        | tensors kList vList =>
          exact absurd present (quiet on key List.mem_cons_self kList vList)
    obtain ⟨succeeded, replaced⟩ := touched.replaceLayers range_bounded inside off
    split
    · rename_i last paired
      rw [paired] at replaced
      exact ⟨next, by simp [accept, observed], replaced⟩
    · rename_i last paired
      rw [paired] at succeeded
      cases succeeded

/-- The condition on a call: a restore of tensors finds none that are on the device. -/
def Config.Meets (cfg : Config Bytes) (state : State Key Bytes) : Call Key Bytes → Prop
  | .restore keys => cfg.Quiet state keys
  | .toGpu key => cfg.Quiet state [key]
  | _ => True

/-- Every call that meets the condition is one of the map. -/
theorem Config.Good.step (good : cfg.Good state abstract) {call : Call Key Bytes}
    (meets : cfg.Meets state call) {after : State Key Bytes} {events : List (Event Key Bytes)}
    (stepped : cfg.step state call = some (after, events)) :
    ∃ next, accept (observe cfg.hostStoreCap) abstract events = some next ∧
      cfg.Good after next := by
  cases call with
  | putRaw key buffers =>
    cases stepped
    exact ⟨_, rfl, good.putChunkRaw key buffers⟩
  | put key layers =>
    cases stepped
    by_cases empty : layers.length = 0
    · rw [if_pos empty, Config.putChunkCoalesced, if_pos empty]
      exact ⟨abstract, rfl, good⟩
    · rw [if_neg empty]
      exact ⟨_, rfl, good.putChunkCoalesced key empty⟩
  | restore keys =>
    have same : cfg.batchedToGpu keys state = (after, events) := Option.some.inj stepped
    simpa only [same] using good.batchedToGpu meets
  | restoreRaw keys =>
    have same : cfg.batchedToGpuRaw keys state = (after, events) := Option.some.inj stepped
    simpa only [same] using good.batchedToGpuRaw keys
  | toGpu key =>
    have same : cfg.toGpu key state = (after, events) := Option.some.inj stepped
    simpa only [same] using good.toGpu meets
  | «exists» key =>
    cases stepped
    have same := congrArg Option.isSome (good.lookup key)
    simp only [Option.isSome_map] at same
    exact ⟨abstract, by simp [accept, observe, same], good⟩
  | delete key =>
    cases stepped
    obtain ⟨answer, removed⟩ := good.delete key
    exact ⟨_, by simp [accept, observe, answer], removed⟩
  | close =>
    cases stepped
    exact ⟨[], rfl, good.freeHostStore⟩

omit [DecidableEq Key] [DecidableEq Bytes] in
/-- At the start the dictionary is empty. -/
theorem initial_good (initial : cfg.Initial state) : cfg.Good state [] := by
  have empty : storeIds state.hostStore = [] := by
    rw [initial.hostStore]
    rfl
  have accounted : cfg.Accounted state [] := by
    refine ⟨List.nodup_nil, fun _ member => (List.not_mem_nil member).elim, fun id member => ?_,
      fun id => ?_, fun layer bounded => ?_⟩
    · rw [initial.entered] at member
      exact (List.not_mem_nil member).elim
    · rw [initial.released, List.count_nil, if_neg]
      rintro ⟨below, dead⟩
      exact absurd ((initial.allocated id below).symm.trans dead) (by decide)
    · obtain ⟨k, v⟩ := initial.caches layer bounded
      rw [initial.entered]
      exact ⟨⟨k, List.not_mem_nil⟩, v, List.not_mem_nil⟩
  refine ⟨?_, ?_, empty ▸ accounted, ?_, fun _ id member => ?_⟩
  · rw [initial.hostStore]
    exact List.nodup_nil
  · rw [initial.hostStore]
    exact Nat.zero_le _
  · rw [initial.hostStore]
    rfl
  · rw [empty] at member
    exact (List.not_mem_nil member).elim

/-- Where no restore finds tensors that are on the device, the dictionary is a map bounded by
recency: its entries, their order and all answers are those of the map, hits return the
bytes of the last store in tensors that are allocated, and a tensor of an entry is released
once, when the entry leaves the dictionary.

Proof: the calls are simulated one by one. The invariant accounts for every tensor that
entered the dictionary: it is allocated if and only if it is in an entry, no cache of the
model is such a tensor, and the log has each tensor that is not allocated once. -/
theorem host_store_refines_lru (cfg : Config Bytes) {start last : State Key Bytes}
    {trace : List (Event Key Bytes)} (initial : cfg.Initial start)
    (run : Run (TakesWhere cfg.step cfg.Meets) start trace last) :
    (∃ entries, accept (observe cfg.hostStoreCap) [] trace = some entries ∧
      mapValues last.contents last.hostStore = mapValues some entries) ∧
    last.hostStore.length ≤ cfg.hostStoreCap ∧
    ∀ id ∈ last.entered, last.released.count id = if id ∈ storeIds last.hostStore then 0 else 1 := by
  obtain ⟨entries, accepted, good⟩ := run.simulates (observe cfg.hostStoreCap) cfg.Good
    (initial_good initial) fun state events after abstract good ⟨call, meets, stepped⟩ =>
      good.step meets stepped
  refine ⟨⟨entries, accepted, good.view⟩, good.bounded, fun id member => ?_⟩
  obtain ⟨below, owner⟩ := good.accounted.live id member
  rw [good.accounted.logged]
  by_cases stored : id ∈ storeIds last.hostStore
  · rw [if_pos stored, if_neg]
    rintro ⟨-, dead⟩
    exact absurd ((owner.mpr stored).symm.trans dead) (by decide)
  · rw [if_neg stored, if_pos]
    refine ⟨below, ?_⟩
    cases live : (last.heap id).allocated with
    | false => rfl
    | true => exact absurd (owner.mp live) stored

end Runs

/-! ## Runs of a model with one layer -/

/-- A model with one layer on one device. -/
def oneLayer (backend : Backend) : Config Nat where
  backend := backend
  dpSize := 1
  tpSize := 1
  numLayers := 1
  hostStoreCap := 2
  capPositive := by decide
  fill := fun _ blocks => blocks.sum

/-- The caches of the layer are the first two tensors. -/
def emptyStore : State Nat Nat where
  heap := fun id => ⟨0, true, decide (id < 2)⟩
  next := 2
  hostStore := []
  kvCaches := fun _ => (0, 1)
  released := []
  entered := []

/-- With the host backend a chunk is restored twice and its tensors stay. -/
theorem host_restore_twice :
    (∃ entries, accept (observe 2) [] [Event.stored 7 (.tensors [10] [20]),
        .hit 7 (some (.tensors [10] [20])), .hit 7 (some (.tensors [10] [20]))] = some entries) ∧
      ∃ last : State Nat Nat, last.entered = [2, 3] ∧ ∀ id ∈ last.entered,
        last.released.count id = if id ∈ storeIds last.hostStore then 0 else 1 := by
  have initial : (oneLayer .host).Initial emptyStore :=
    ⟨rfl, rfl, rfl, fun _ below => decide_eq_true below, fun _ _ => ⟨Nat.zero_lt_two, Nat.one_lt_two⟩⟩
  have quiet : ∀ state : State Nat Nat, ∀ keys, (oneLayer .host).Quiet state keys :=
    fun _ _ on => absurd on (by decide)
  have begin : Run (TakesWhere (oneLayer .host).step (oneLayer .host).Meets) emptyStore []
      emptyStore := .start
  have first := begin.next (⟨.put 7 [(10, 20)], trivial, rfl⟩ : TakesWhere (oneLayer .host).step
    (oneLayer .host).Meets emptyStore _ _)
  have second := first.next (⟨.restore [7], quiet _ _, rfl⟩ : TakesWhere (oneLayer .host).step
    (oneLayer .host).Meets _ _ _)
  have run := second.next (⟨.restore [7], quiet _ _, rfl⟩ : TakesWhere (oneLayer .host).step
    (oneLayer .host).Meets _ _ _)
  obtain ⟨⟨entries, accepted, -⟩, -, counted⟩ := host_store_refines_lru (oneLayer .host) initial run
  exact ⟨⟨entries, accepted⟩, _, rfl, counted⟩

/-- With the local backend the first restore releases the tensors of the entry, which stays
in the dictionary; the second one finds them gone and fails. -/
theorem local_restore_releases :
    ∃ last trace, Run (Takes (oneLayer .local).step) emptyStore trace last ∧
      trace = [Event.stored 7 (.tensors [10] [20]), .hit 7 (some (.tensors [10] [20])),
        .hit 7 none, .failed] ∧
      last.hostStore = [(7, .tensors [2] [3])] ∧ last.released = [2, 3] := by
  have run : Run (Takes (oneLayer .local).step) emptyStore [] emptyStore := .start
  have executed : Run.execute (oneLayer .local).step emptyStore
      [.put 7 [(10, 20)], .restore [7], .restore [7]] = some _ := rfl
  exact ⟨_, _, run.execute executed, rfl, rfl, rfl⟩

end KvCache.HostStore
