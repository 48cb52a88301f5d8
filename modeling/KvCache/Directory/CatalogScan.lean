import KvCache.Directory.Effects
import KvCache.Directory.LifeInvariant

/-!
# Replacement in a full catalog

A PUT of a new key takes a free slot as long as there is one. In a full catalog it gives up
an entry. The kernel reads the directory in batches and keeps the oldest entry that is not
pending, by the difference of the access epoch and the stamp of the entry.

The stamps are words that wrap. What they stand for is the number of the access at which an
entry was last used; here this number is kept beside each life. The stamp of every valid
entry is its residue whenever a request is taken, because a GET stamps its entry before the
scheduler goes on.
-/

namespace KvCache.Directory

open AlignedBlock Buddy Function HashIndex Layout Residency WrappedCounter

/-! ## The scan -/

/-- Entries that the scan reads at once. -/
def dirScanBatch : Nat := 16

instance : NeZero dirScanBatch := ⟨by decide⟩

/-- Read a batch of entries into the staging area. -/
def stageBatch (dir : State) (base thisBatch : Nat) (staging : Nat → DirEntry) : Nat → DirEntry :=
  fun index => if index < thisBatch then dir.entry (base + index) else staging index

/-- Consider one staged entry. Pending entries are pinned. -/
def considerStaged (nowEpoch base : Nat) (staging : Nat → DirEntry) (oldest : Option (Nat × Nat))
    (index : Nat) : Option (Nat × Nat) :=
  if (staging index).valid = false then oldest
  else if (staging index).location = .devicePendingHost then oldest
  else
    let age := (nowEpoch + 2 ^ 32 - (staging index).lastAccess) % 2 ^ 32
    match oldest with
    | none => some (base + index, age)
    | some (slot, oldestAge) =>
      if oldestAge < age then some (base + index, age) else some (slot, oldestAge)

/-- The scan from a slot on, with the staging area that the batch before left. -/
def scanFrom (g : Geometry) (dir : State) (base : Nat) (staging : Nat → DirEntry)
    (oldest : Option (Nat × Nat)) : Option (Nat × Nat) :=
  if base < g.maxKeys then
    let thisBatch := if g.maxKeys - base < dirScanBatch then g.maxKeys - base else dirScanBatch
    let staged := stageBatch dir base thisBatch staging
    scanFrom g dir (base + dirScanBatch) staged
      ((List.range thisBatch).foldl (considerStaged dir.epoch base staged) oldest)
  else oldest
termination_by g.maxKeys - base
decreasing_by
  unfold dirScanBatch
  omega

/-- The slot that the scan selects in a full catalog. -/
def catalogScan (g : Geometry) (dir : State) (staging : Nat → DirEntry) : Option Nat :=
  (scanFrom g dir 0 staging none).map Prod.fst

section Scan

variable {g : Geometry} {dir : State} {staging : Nat → DirEntry}

/-- A staged entry is considered as the entry itself. -/
theorem considerStaged_eq {base thisBatch index : Nat} (inside : index < thisBatch)
    (oldest : Option (Nat × Nat)) :
    considerStaged dir.epoch base (stageBatch dir base thisBatch staging) oldest index =
      considerOldest dir oldest (base + index) := by
  unfold considerStaged considerOldest replaceable
  rw [stageBatch, if_pos inside]
  cases (dir.entry (base + index)).valid with
  | false => simp
  | true =>
    cases same : (dir.entry (base + index)).location <;> cases oldest <;> simp

/-- The scan in batches is one loop.

Proof: by induction on the batches. Within a batch every staged entry is that of the slot, also
in the last batch, which may be partial. -/
theorem scanFrom_eq (base : Nat) (staging : Nat → DirEntry) (oldest : Option (Nat × Nat)) :
    scanFrom g dir base staging oldest =
      Selection.inBatches (considerOldest dir) dirScanBatch g.maxKeys base oldest := by
  induction base, staging, oldest using scanFrom.induct g dir with
  | case1 base staging oldest below thisBatch staged inductionHypothesis =>
    have size : thisBatch = min (g.maxKeys - base) dirScanBatch := by
      simp only [thisBatch]
      split <;> omega
    have batch : (List.range thisBatch).foldl (considerStaged dir.epoch base staged) oldest =
        (List.range thisBatch).foldl (fun oldest index => considerOldest dir oldest (base + index))
          oldest := by
      apply List.foldl_ext
      intro oldest index inside
      exact considerStaged_eq (List.mem_range.mp inside) oldest
    rw [scanFrom, if_pos below]
    change scanFrom g dir (base + dirScanBatch) staged
      ((List.range thisBatch).foldl (considerStaged dir.epoch base staged) oldest) = _
    rw [inductionHypothesis, batch, size]
    conv_rhs => rw [Selection.inBatches, if_pos below]
  | case2 base staging oldest done =>
    rw [scanFrom, if_neg done, Selection.inBatches, if_neg done]

/-- The scan finds the oldest committed entry, whatever the staging area held. -/
theorem catalogScan_eq (staging : Nat → DirEntry) :
    catalogScan g dir staging = oldestCommitted g dir := by
  rw [catalogScan, scanFrom_eq, Selection.inBatches_eq, Nat.sub_zero, ← List.range_eq_range']
  rfl

end Scan

/-! ## The accesses behind the stamps -/

/-- A life with the number of the access at which each slot was last used, and the flag that
forces a write-through before the next request. -/
structure Observed where
  life : Life
  lastUse : Nat → Nat
  forced : Bool

/-- Cold start. -/
def coldObserved (g : Geometry) (contents : Nat → HeapBlock) : Observed :=
  ⟨coldLife g contents, fun _ => 0, false⟩

variable (g : Geometry) (policy : LeasePolicy)

/-- The slot that an operation uses: a publication, a GET and an admission are accesses. -/
def Life.usedSlot (life : Life) : DirAction → Option Nat
  | .publish _ _ => life.granted.map fun granted => granted.grant.dirSlot
  | .hit key => dirLookup g key life.dir
  | .serve key => dirLookup g key life.dir
  | .finishPromote => life.promoting.bind fun fetch =>
    if hostEntryIs life.dir fetch.slot fetch.totalLen then some fetch.slot else none
  | _ => none

/-- Record a use. -/
def recordUse (used : Option Nat) (access : Nat) (lastUse : Nat → Nat) : Nat → Nat :=
  match used with
  | some slot => update lastUse slot access
  | none => lastUse

/-- The flag after an operation: a refused prepare sets it if a PUT is queued; a grant, a
publication and the consumption of a queued PUT clear it. -/
def Observed.forcedAfter (state : Observed) (after : Life) : DirAction → Bool
  | .prepare _ _ _ _ =>
    if after.granted.isSome then false else state.forced || !after.dir.putHostQueue.isEmpty
  | .publish _ _ => false
  | .commitHead _ => false
  | _ => state.forced

/-- One operation. -/
def observedStep (state : Observed) (action : DirAction) : Option (Observed × List Empty) :=
  (lifeStep g policy state.life action).map fun (after, events) =>
    (⟨after, recordUse (state.life.usedSlot g action) after.accesses state.lastUse,
      state.forcedAfter after action⟩, events)

/-- What some sequence of operations leads to. -/
def ObservedReached (contents : Nat → HeapBlock) : Observed → Prop :=
  Run.Reachable (Run.Takes (observedStep g policy)) (coldObserved g contents)

variable {g : Geometry} {policy : LeasePolicy} {contents : Nat → HeapBlock}
variable {state : Observed} {after : Life} {dir middle : State} {slot : Nat}

/-- The stamps are the residues of the accesses. The value of a host entry that is being served
is stamped at the end. -/
structure Stamped (state : Observed) : Prop where
  bounded : ∀ slot, state.lastUse slot ≤ state.life.accesses
  stamp : ∀ slot, (state.life.dir.entry slot).valid = true →
    (∀ fetch, state.life.serving = some fetch → fetch.slot ≠ slot) →
    (state.life.dir.entry slot).lastAccess = state.lastUse slot % 2 ^ 32
  serving : ∀ fetch, state.life.serving = some fetch →
    hostEntryIs state.life.dir fetch.slot fetch.totalLen = true ∧
      fetch.accessEpoch = state.lastUse fetch.slot % 2 ^ 32

/-- An entry that is valid afterwards was so before and has the same stamp. -/
def KeepsStamp (before after : State) (slot : Nat) : Prop :=
  (after.entry slot).valid = true →
    (before.entry slot).valid = true ∧ (after.entry slot).lastAccess = (before.entry slot).lastAccess

theorem Demoted.keepsStamp (demoted : Demoted dir middle) (slot : Nat) :
    KeepsStamp dir middle slot := by
  intro valid
  refine ⟨demoted.valid slot ▸ valid, ?_⟩
  rcases demoted.entry slot with same | ⟨_, same⟩ <;> rw [same]

theorem keepsStamp_of_entry (same : middle.entry slot = dir.entry slot) :
    KeepsStamp dir middle slot := fun valid => ⟨same ▸ valid, by rw [same]⟩

namespace Stamped

theorem cold (g : Geometry) (contents : Nat → HeapBlock) : Stamped (coldObserved g contents) :=
  ⟨fun _ => le_rfl, fun _ impossible => (nomatch impossible), fun _ impossible => nomatch impossible⟩

/-- An operation that uses no slot. -/
theorem keep (stamped : Stamped state) (idle : state.life.serving = none)
    (notServing : after.serving = none) (accesses : after.accesses = state.life.accesses)
    (kept : ∀ slot, KeepsStamp state.life.dir after.dir slot) (forced : Bool) :
    Stamped ⟨after, state.lastUse, forced⟩ := by
  refine ⟨fun slot => accesses ▸ stamped.bounded slot, fun slot valid _ => ?_,
    fun fetch isServing => nomatch notServing.symm.trans isServing⟩
  obtain ⟨before, same⟩ := kept slot valid
  exact same.trans (stamped.stamp slot before fun fetch isServing => nomatch idle.symm.trans isServing)

/-- An operation that uses a slot. -/
theorem use (stamped : Stamped state) (idle : state.life.serving = none)
    (notServing : after.serving = none) (accesses : after.accesses = state.life.accesses + 1)
    (fresh : (after.dir.entry slot).lastAccess = after.accesses % 2 ^ 32)
    (kept : ∀ other, other ≠ slot → KeepsStamp state.life.dir after.dir other) (forced : Bool) :
    Stamped ⟨after, update state.lastUse slot after.accesses, forced⟩ := by
  refine ⟨fun other => ?_, fun other valid _ => ?_,
    fun fetch isServing => nomatch notServing.symm.trans isServing⟩
  · dsimp only
    by_cases same : other = slot
    · rw [same, update_self]
    · have bounded := stamped.bounded other
      rw [update_of_ne same]
      omega
  · dsimp only
    by_cases same : other = slot
    · rw [same, update_self]
      exact fresh
    · rw [update_of_ne same]
      obtain ⟨before, unchanged⟩ := kept other same valid
      exact unchanged.trans
        (stamped.stamp other before fun fetch isServing => nomatch idle.symm.trans isServing)

/-- A prepare keeps the stamps of the entries it leaves. -/
theorem prepare (stamped : Stamped state) {resident recycled : List Nat}
    (lives : Lives g contents state.life resident recycled) {client : Nat} {bind : Bool} {key : Key}
    {totalLen : Nat} (idle : state.life.idle = true)
    (binds : bind = true → mayBind (state.life.lease client) totalLen = true) (forced : Bool) :
    Stamped ⟨state.life.prepare g policy client bind key totalLen, state.lastUse, forced⟩ := by
  have notServing := ((Lives.idle_iff state.life).mp idle).2
  have prepares : Prepares g contents state.life.Unwrapped state.life.dir state.life.held
      .reservation (.lease client) ⟨bind, key, totalLen, state.life.lease client⟩
      (state.life.prepare g policy client bind key totalLen).dir _ := lives.prepares idle binds
  refine stamped.keep notServing ?_ ?_ ?_ _
  · exact notServing
  · rfl
  intro other
  rcases prepares.effect with ⟨same, _⟩ | ⟨slot, displaced, _⟩
  · rw [same]
    exact keepsStamp_of_entry rfl
  · by_cases here : other = slot
    · intro valid
      rw [here, displaced.cleared] at valid
      exact nomatch valid
    · rcases displaced.entry other here with same | ⟨_, same⟩
      · exact keepsStamp_of_entry same
      · intro valid
        rw [same] at valid ⊢
        exact ⟨valid, rfl⟩

/-- A publication stamps its slot. -/
theorem publish (stamped : Stamped state) {resident recycled : List Nat}
    (lives : Lives g contents state.life resident recycled) {granted : Granted} {token : Nat}
    {streamed : Bool} (notServing : state.life.serving = none)
    (published : putPublish g streamed (granted.request token) state.life.dir = some dir)
    (forced : Bool) :
    Stamped ⟨{ state.life with dir := dir, granted := none, accesses := state.life.accesses + 1 },
      update state.lastUse granted.grant.dirSlot (state.life.accesses + 1), forced⟩ := by
  have publishes := putPublish_some published
  refine stamped.use notServing ?_ ?_ ?_ ?_ _
  · exact notServing
  · rfl
  · simp only [publishes.entry, Granted.request, update_self, pendingEntry]
    exact lives.epoch_next
  · intro other different
    apply keepsStamp_of_entry
    simp only [publishes.entry, Granted.request, update_of_ne different]

/-- A commit keeps the stamps. -/
theorem commit (stamped : Stamped state) (slot hostGeneration : Nat)
    (notServing : state.life.serving = none) (forced : Bool) :
    Stamped ⟨{ state.life with dir := commitEntry slot hostGeneration state.life.dir },
      state.lastUse, forced⟩ := by
  refine stamped.keep notServing ?_ ?_ ?_ _
  · exact notServing
  · rfl
  intro other valid
  by_cases here : other = slot
  · subst here
    simp only [commitEntry, update_self] at valid ⊢
    exact ⟨valid, trivial⟩
  · simp only [commitEntry, update_of_ne here] at valid ⊢
    exact ⟨valid, trivial⟩

/-- A GET of a device entry stamps it. -/
theorem hit (stamped : Stamped state) {resident recycled : List Nat}
    (lives : Lives g contents state.life resident recycled) (slot : Nat)
    (notServing : state.life.serving = none) (forced : Bool) :
    Stamped ⟨{ state.life with
        dir := recordDeviceHit slot (nextEpoch state.life.dir.epoch) (advanceEpoch state.life.dir)
        accesses := state.life.accesses + 1 },
      update state.lastUse slot (state.life.accesses + 1), forced⟩ := by
  refine stamped.use notServing ?_ ?_ ?_ ?_ _
  · exact notServing
  · rfl
  · simp only [recordDeviceHit, persistGetAccessStamp, advanceEpoch, update_self]
    exact lives.epoch_next
  · intro other different
    apply keepsStamp_of_entry
    simp only [recordDeviceHit, persistGetAccessStamp, advanceEpoch, update_of_ne different]

end Stamped

/-! ## GETs of host entries -/

/-- A block taken for a host value names the entry and the epoch. -/
theorem fetchBlock_some {accessEpoch : Nat} {fetch : Fetch}
    (taken : (fetchBlock g slot accessEpoch dir).2 = some fetch) :
    fetch.slot = slot ∧ fetch.totalLen = (dir.entry slot).totalValueLen ∧
      fetch.accessEpoch = accessEpoch := by
  obtain ⟨_, _, rfl⟩ := Option.map_eq_some_iff.mp taken
  exact ⟨rfl, rfl, rfl⟩

/-- Taking a block leaves a host entry as it is. -/
theorem fetchBlock_host (accessEpoch : Nat) (onHost : (dir.entry slot).location = .host) :
    (fetchBlock g slot accessEpoch dir).1.entry slot = dir.entry slot := by
  have demoted : Demoted dir (fetchBlock g slot accessEpoch dir).1 := allocateCacheBlock_demoted ..
  exact demoted.kept (by simp [evictable, onHost])

/-- A stamp of the entry that was found. -/
theorem persistHostStamp_entry {totalLen : Nat} (accessEpoch : Nat)
    (found : hostEntryIs dir slot totalLen = true) :
    (persistHostGetAccessStampIfCurrent slot totalLen accessEpoch dir).entry =
      update dir.entry slot { dir.entry slot with lastAccess := accessEpoch } := by
  rw [persistHostGetAccessStampIfCurrent, if_pos found]
  rfl

/-- An admission stamps the entry that was found. -/
theorem commitAdmission_entry {totalLen : Nat} (valueByteOff order accessEpoch : Nat)
    (found : hostEntryIs dir slot totalLen = true) :
    (commitHostGetAdmission slot valueByteOff totalLen order accessEpoch dir).1.entry =
      update dir.entry slot
        { dir.entry slot with
          valueByteOff := valueByteOff
          location := .device
          blockOrder := order
          lastAccess := accessEpoch } := by
  rw [commitHostGetAdmission, if_pos found]

namespace Stamped

/-- A GET of a host entry takes its access; the stamp is written now or with the admission. -/
theorem serve (stamped : Stamped state) {resident recycled : List Nat}
    (lives : Lives g contents state.life resident recycled) (slot : Nat)
    (notServing : state.life.serving = none)
    (valid : (state.life.dir.entry slot).valid = true)
    (onHost : (state.life.dir.entry slot).location = .host) (forced : Bool) :
    Stamped ⟨state.life.serve g slot,
      update state.lastUse slot (state.life.serve g slot).accesses, forced⟩ := by
  have demoted : Demoted (advanceEpoch state.life.dir)
      (fetchBlock g slot (advanceEpoch state.life.dir).epoch (advanceEpoch state.life.dir)).1 :=
    allocateCacheBlock_demoted ..
  have here := @fetchBlock_host g (advanceEpoch state.life.dir) slot
    (advanceEpoch state.life.dir).epoch onHost
  have found : hostEntryIs
      (fetchBlock g slot (advanceEpoch state.life.dir).epoch (advanceEpoch state.life.dir)).1 slot
      (state.life.dir.entry slot).totalValueLen = true := by
    rw [hostEntryIs, here]
    simp [advanceEpoch, valid, onHost]
  have kept := demoted.keepsStamp
  have epoch : (advanceEpoch state.life.dir).epoch = (state.life.accesses + 1) % 2 ^ 32 :=
    lives.epoch_next
  unfold Life.serve
  dsimp only
  cases block : (fetchBlock g slot (advanceEpoch state.life.dir).epoch
    (advanceEpoch state.life.dir)).2 with
  | none =>
    have entries := persistHostStamp_entry (advanceEpoch state.life.dir).epoch found
    refine stamped.use notServing ?_ ?_ ?_ ?_ _
    · rfl
    · rfl
    · dsimp only
      rw [entries, update_self]
      exact epoch
    · intro other different isValid
      dsimp only at isValid ⊢
      rw [entries, update_of_ne different] at isValid ⊢
      exact kept other isValid
  | some fetch =>
    obtain ⟨isSlot, isLen, isStamp⟩ := fetchBlock_some block
    refine ⟨fun other => ?_, fun other isValid apart => ?_, fun taken isServing => ?_⟩
    · dsimp only
      by_cases same : other = slot
      · rw [same, update_self]
      · have bounded := stamped.bounded other
        rw [update_of_ne same]
        omega
    · dsimp only at isValid ⊢
      have different : other ≠ slot := fun same => apart fetch rfl (isSlot.trans same.symm)
      obtain ⟨before, unchanged⟩ := kept other isValid
      rw [update_of_ne different]
      exact unchanged.trans
        (stamped.stamp other before fun _ isServing => by cases notServing.symm.trans isServing)
    · obtain rfl : fetch = taken := Option.some.inj isServing
      dsimp only
      rw [isSlot, update_self, isLen, isStamp]
      exact ⟨found, epoch⟩

/-- The end of a GET of a host entry stamps it with the access taken at its start. -/
theorem finishServe (stamped : Stamped state) {fetch : Fetch}
    (isServing : state.life.serving = some fetch) (forced : Bool) :
    Stamped ⟨state.life.finishServe g fetch, state.lastUse, forced⟩ := by
  obtain ⟨found, isStamp⟩ := stamped.serving fetch isServing
  have entries := commitAdmission_entry fetch.valueByteOff fetch.order fetch.accessEpoch found
  have committed := (Lives.commitHostGetAdmission_frame fetch.valueByteOff fetch.order
    fetch.accessEpoch found).1
  unfold Life.finishServe
  dsimp only
  rw [if_pos committed]
  refine ⟨stamped.bounded, fun other isValid _ => ?_, fun _ impossible => nomatch impossible⟩
  dsimp only at isValid ⊢
  by_cases same : other = fetch.slot
  · rw [entries, same, update_self]
    exact isStamp
  · rw [entries, update_of_ne same] at isValid ⊢
    refine stamped.stamp other isValid fun taken isTaken here => same ?_
    obtain rfl : fetch = taken := Option.some.inj (isServing.symm.trans isTaken)
    exact here.symm

/-- The end of a promotion is an access if the entry is admitted. -/
theorem finishPromote (stamped : Stamped state) {resident recycled : List Nat}
    (lives : Lives g contents state.life resident recycled) (fetch : Fetch)
    (notServing : state.life.serving = none) (forced : Bool) :
    Stamped ⟨state.life.finishPromote g fetch,
      recordUse (if hostEntryIs state.life.dir fetch.slot fetch.totalLen then some fetch.slot else none)
        (state.life.finishPromote g fetch).accesses state.lastUse, forced⟩ := by
  unfold Life.finishPromote finishPromotion
  by_cases found : hostEntryIs state.life.dir fetch.slot fetch.totalLen = true
  · have foundNext : hostEntryIs (advanceEpoch state.life.dir) fetch.slot fetch.totalLen = true :=
      found
    have entries := commitAdmission_entry fetch.valueByteOff fetch.order
      (nextEpoch state.life.dir.epoch) foundNext
    rw [if_pos found, if_pos found, if_pos found]
    refine stamped.use notServing ?_ ?_ ?_ ?_ _
    · exact notServing
    · rfl
    · dsimp only
      rw [entries, update_self]
      exact lives.epoch_next
    · intro other different
      apply keepsStamp_of_entry
      dsimp only
      rw [entries, update_of_ne different]
      rfl
  · rw [if_neg found, if_neg found, if_neg found]
    refine stamped.keep notServing ?_ ?_ ?_ _
    · exact notServing
    · rfl
    · exact fun other => keepsStamp_of_entry rfl

/-- An operation that at most evicts keeps the stamps. -/
theorem demote (stamped : Stamped state) (promoting : Option Fetch)
    (notServing : state.life.serving = none) (demoted : Demoted state.life.dir dir) (forced : Bool) :
    Stamped ⟨{ state.life with dir := dir, promoting := promoting }, state.lastUse, forced⟩ := by
  refine stamped.keep notServing ?_ ?_ ?_ _
  · exact notServing
  · rfl
  · exact demoted.keepsStamp

/-- A removal keeps the stamps of the other entries. -/
theorem remove (stamped : Stamped state) (slot : Nat) (notServing : state.life.serving = none)
    (forced : Bool) :
    Stamped ⟨{ state.life with dir := removeEntry g slot state.life.dir }, state.lastUse, forced⟩ := by
  refine stamped.keep notServing ?_ ?_ ?_ _
  · exact notServing
  · rfl
  · intro other isValid
    have entries : (removeEntry g slot state.life.dir).entry = update state.life.dir.entry slot
        { state.life.dir.entry slot with valid := false } := eraseEntry_entry g slot state.life.dir
    dsimp only at isValid ⊢
    by_cases same : other = slot
    · rw [entries, same, update_self] at isValid
      exact nomatch isValid
    · rw [entries, update_of_ne same] at isValid ⊢
      exact ⟨isValid, rfl⟩

/-- One operation.

Proof: each operation uses the slot that it stamps, or none. -/
theorem step (stamped : Stamped state) {resident recycled : List Nat}
    (lives : Lives g contents state.life resident recycled) {action : DirAction}
    {next : Observed} {events : List Empty}
    (stepped : observedStep g policy state action = some (next, events)) : Stamped next := by
  obtain ⟨⟨after, events'⟩, taken, same⟩ := Option.map_eq_some_iff.mp stepped
  obtain ⟨rfl, -⟩ := Prod.mk.inj same
  generalize state.forcedAfter after action = forced
  cases action with
  | prepare client bind key totalLen =>
    simp only [lifeStep, Option.ite_none_right_eq_some, Option.some.injEq, Prod.mk.injEq] at taken
    obtain ⟨⟨idle, _, binds⟩, rfl, -⟩ := taken
    exact stamped.prepare lives idle binds forced
  | publish token streamed =>
    simp only [lifeStep, Option.ite_none_right_eq_some, Option.bind_eq_some_iff,
      Option.map_eq_some_iff, Prod.mk.injEq] at taken
    obtain ⟨notServing, granted, isGranted, dir, published, rfl, -⟩ := taken
    simp only [Life.usedSlot, isGranted, Option.map_some, recordUse]
    exact stamped.publish lives notServing published forced
  | commitHead hostGeneration =>
    simp only [lifeStep, Option.ite_none_right_eq_some, Option.map_eq_some_iff,
      Prod.mk.injEq] at taken
    obtain ⟨notServing, item, _, rfl, -⟩ := taken
    by_cases fresh : freshItem state.life.dir item = true
    · rw [if_pos fresh]
      have committed := stamped.commit item.dirSlot hostGeneration notServing forced
      exact ⟨committed.bounded, committed.stamp, committed.serving⟩
    · rw [if_neg fresh]
      exact ⟨stamped.bounded, stamped.stamp, stamped.serving⟩
  | commitStreamed slot hostGeneration =>
    simp only [lifeStep, Option.ite_none_right_eq_some, Option.some.injEq, Prod.mk.injEq] at taken
    obtain ⟨⟨notServing, _, _⟩, rfl, -⟩ := taken
    exact stamped.commit slot hostGeneration notServing forced
  | hit key =>
    simp only [lifeStep, Option.ite_none_right_eq_some, Option.ite_none_left_eq_some,
      Option.bind_eq_some_iff, Option.some.injEq, Prod.mk.injEq] at taken
    obtain ⟨idle, slot, found, _, rfl, -⟩ := taken
    simp only [Life.usedSlot, found, recordUse]
    exact stamped.hit lives slot ((Lives.idle_iff state.life).mp idle).2 forced
  | serve key =>
    simp only [lifeStep, Option.ite_none_right_eq_some, Option.bind_eq_some_iff,
      Option.some.injEq, Prod.mk.injEq] at taken
    obtain ⟨idle, slot, found, onHost, rfl, -⟩ := taken
    have valid := ((lives.consistent.lookup_iff key).mp found).1
    simp only [Life.usedSlot, found, recordUse]
    exact stamped.serve lives slot ((Lives.idle_iff state.life).mp idle).2 valid onHost forced
  | finishServe =>
    simp only [lifeStep, Option.map_eq_some_iff, Prod.mk.injEq] at taken
    obtain ⟨fetch, isServing, rfl, -⟩ := taken
    exact stamped.finishServe isServing forced
  | promote key =>
    simp only [lifeStep, Option.ite_none_right_eq_some, Option.bind_eq_some_iff,
      Option.some.injEq, Prod.mk.injEq] at taken
    obtain ⟨⟨idle, _⟩, slot, _, _, rfl, -⟩ := taken
    exact stamped.demote _ ((Lives.idle_iff state.life).mp idle).2 (allocateCacheBlock_demoted ..)
      forced
  | finishPromote =>
    simp only [lifeStep, Option.ite_none_right_eq_some, Option.map_eq_some_iff,
      Prod.mk.injEq] at taken
    obtain ⟨notServing, fetch, isPromoting, rfl, -⟩ := taken
    simp only [Life.usedSlot, isPromoting, Option.bind_some]
    exact stamped.finishPromote lives fetch notServing forced
  | moveToHost key =>
    simp only [lifeStep, Option.ite_none_right_eq_some, Option.bind_eq_some_iff,
      Option.map_eq_some_iff, Prod.mk.injEq] at taken
    obtain ⟨idle, slot, _, dir, evicted, rfl, -⟩ := taken
    exact stamped.demote _ ((Lives.idle_iff state.life).mp idle).2
      (evictCachedBlock_demoted evicted) forced
  | remove key =>
    simp only [lifeStep, Option.ite_none_right_eq_some, Option.map_eq_some_iff,
      Prod.mk.injEq] at taken
    obtain ⟨idle, slot, _, rfl, -⟩ := taken
    exact stamped.remove slot ((Lives.idle_iff state.life).mp idle).2 forced

end Stamped

/-- Every state that is reached. -/
theorem ObservedReached.spec (reached : ObservedReached g policy contents state) :
    (∃ resident recycled, Lives g contents state.life resident recycled) ∧ Stamped state := by
  obtain ⟨trace, run⟩ := reached
  refine run.invariant (fun state => (∃ resident recycled,
    Lives g contents state.life resident recycled) ∧ Stamped state)
    ⟨⟨[], [], Lives.cold g contents⟩, Stamped.cold g contents⟩ ?_
  rintro state events next ⟨⟨resident, recycled, lives⟩, stamped⟩ ⟨action, stepped⟩
  obtain ⟨⟨after, events'⟩, taken, same⟩ := Option.map_eq_some_iff.mp stepped
  have isLife : after = next.life := congrArg (fun pair => pair.1.life) same
  exact ⟨isLife ▸ lives.step taken, stamped.step lives stepped⟩

/-! ## The selection -/

/-- In a full catalog a new key gets the slot of the oldest committed entry. -/
theorem selectSlot_full {strict : Prop} {held : Holder → Option Block} {resident recycled : List Nat}
    (inv : Consistent g contents strict dir held resident recycled) {key : Key}
    (idle : dir.reservedSlot = none) (full : ∀ slot < g.maxKeys, (dir.entry slot).valid = true)
    (fresh : ∀ slot, keyAt dir slot ≠ some key) :
    selectSlot g key dir = (dir, oldestCommitted g dir) := by
  have missing : dirLookup g key dir = none := by
    apply (inv.lookup_none_iff key).mpr
    rintro slot ⟨valid, hasKey⟩
    exact fresh slot (by simp [keyAt, keyOf, valid, hasKey])
  rw [selectSlot, missing]
  cases claimed : catalogClaimFreeSlot g.maxKeys dir.catalog with
  | none => rfl
  | some pair =>
    obtain ⟨slot, catalog⟩ := pair
    obtain ⟨recycled', consistent, invalid⟩ := inv.reserveClaimed idle claimed
    have below : slot < g.maxKeys :=
      (consistent.reservedApart slot (reserveSlot_frame ..).1).1.trans_le consistent.catalog.used
    cases (full slot below).symm.trans invalid

/-- A prepare that finds no slot leaves the life as it was. -/
theorem Life.prepare_unselected {life : Life} {client : Nat} {bind : Bool} {key : Key} {totalLen : Nat}
    (idle : life.idle = true)
    (missed : PutPrepareRequest.Checked g ⟨bind, key, totalLen, life.lease client⟩ life.dir →
      (selectSlot g key life.dir).2 = none) :
    life.prepare g policy client bind key totalLen = life := by
  have noGrant := ((Lives.idle_iff life).mp idle).1
  rw [Life.prepare, putPrepare_unselected missed]
  simp only [update_eq_self, Option.map_none, ← noGrant]

/-- A refused prepare that found no slot changes the flag alone. -/
theorem observed_unselected {next : Observed} {client : Nat} {bind : Bool} {key : Key} {totalLen : Nat}
    {events : List Empty}
    (prepared : observedStep g policy state (.prepare client bind key totalLen) = some (next, events))
    (missed : PutPrepareRequest.Checked g ⟨bind, key, totalLen, state.life.lease client⟩
      state.life.dir → (selectSlot g key state.life.dir).2 = none) :
    next = { state with forced := state.forced || !state.life.dir.putHostQueue.isEmpty } := by
  obtain ⟨⟨after, events'⟩, taken, same⟩ := Option.map_eq_some_iff.mp prepared
  obtain ⟨rfl, -⟩ := Prod.mk.inj same
  simp only [lifeStep, Option.ite_none_right_eq_some, Option.some.injEq, Prod.mk.injEq] at taken
  obtain ⟨⟨idle, _, _⟩, rfl, -⟩ := taken
  have noGrant := ((Lives.idle_iff state.life).mp idle).1
  have unchanged : state.life.prepare g policy client bind key totalLen = state.life :=
    Life.prepare_unselected idle missed
  simp [unchanged, Observed.forcedAfter, noGrant, Life.usedSlot, recordUse]

/-- A directory of two keys over a heap of four units. -/
def fourUnits : Geometry :=
  ⟨2, 8, 1, 4 * maxChunkValueBytes,
  Nat.two_pos, Geometry.eight_wire, Nat.one_pos⟩

/-- Leases come from free blocks. -/
def freeBlocks : LeasePolicy := ⟨false, false⟩

/-- Heap metadata without a free marker. -/
def noMarkers : Nat → HeapBlock := fun _ => ⟨.continuation, 0, none, none⟩

/-- Store two values and commit as many of them. -/
def storeTwo (commits : List DirAction) : List DirAction :=
  [.prepare 0 false [1] 1, .publish 1 false, .prepare 0 true [2] 1, .publish 2 false] ++ commits

/-- The state after a list of operations. -/
def afterwards (actions : List DirAction) : Observed :=
  ((Run.execute (observedStep fourUnits freeBlocks) (coldObserved fourUnits noMarkers) actions).map
    Prod.fst).getD (coldObserved fourUnits noMarkers)

theorem afterwards_reached {actions : List DirAction} {events : List Empty}
    (executed : Run.execute (observedStep fourUnits freeBlocks) (coldObserved fourUnits noMarkers)
      actions = some (afterwards actions, events)) :
    ObservedReached fourUnits freeBlocks noMarkers (afterwards actions) :=
  ⟨_, Run.Run.execute .start executed⟩

/-- A key that neither slot holds is nowhere. -/
theorem absent_of_slots (reached : ObservedReached fourUnits freeBlocks noMarkers state) {key : Key}
    (slots : ∀ slot < 2, keyAt state.life.dir slot ≠ some key) (slot : Nat) :
    keyAt state.life.dir slot ≠ some key := by
  intro hasKey
  obtain ⟨⟨resident, recycled, lives⟩, -⟩ := reached.spec
  have valid : (state.life.dir.entry slot).valid = true := by
    by_contra invalid
    simp [keyAt, keyOf, invalid] at hasKey
  exact slots slot (lives.consistent.valid_lt valid) hasKey

end KvCache.Directory
