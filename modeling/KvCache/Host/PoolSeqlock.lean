import KvCache.Host.PoolPartition

/-!
# Serving in place reads the right extent

The device serves a value in place when the metadata record of the slot has the
generation that the directory entry was acknowledged with. The generations of a slot
are those of its successive publications, so equal generations mean the same
publication unless they wrapped fully in between. What remains is that the record, as
long as it is valid, describes the last publication, and that the extent of the last
publication stays with the slot until the record is invalid.

Both are kept by every store. Publication clears the first word before it changes the
others and sets it last; a drop clears it before the extent is released.
-/

namespace KvCache.PoolMachine

open Layout Pool Function Run

variable {cfg : Config} {state after : State}

/-! ## Generations -/

/-- The generation of a publication. -/
def generationOf : Nat → Nat
  | 0 => 0
  | index + 1 => nextPoolGeneration (generationOf index)

theorem generationOf_succ (index : Nat) :
    generationOf (index + 1) = index % (2 ^ 32 - 1) + 1 := by
  induction index with
  | zero => rfl
  | succ index inductionHypothesis =>
    have bounded := Nat.mod_lt index (show 0 < 2 ^ 32 - 1 by omega)
    rw [generationOf, inductionHypothesis, nextPoolGeneration]
    split <;> omega

theorem generationOf_ne_zero {index : Nat} (positive : 0 < index) : generationOf index ≠ 0 := by
  obtain ⟨former, rfl⟩ := Nat.exists_eq_succ_of_ne_zero (Nat.pos_iff_ne_zero.mp positive)
  rw [generationOf_succ]
  exact Nat.succ_ne_zero _

/-- Publications of equal generation are the same or a full wrap apart. -/
theorem generationOf_inj {older newer : Nat} (positive : 0 < older) (ordered : older ≤ newer)
    (near : newer < older + (2 ^ 32 - 1)) (same : generationOf older = generationOf newer) :
    older = newer := by
  obtain ⟨former, rfl⟩ := Nat.exists_eq_succ_of_ne_zero (Nat.pos_iff_ne_zero.mp positive)
  obtain ⟨latter, rfl⟩ := Nat.exists_eq_succ_of_ne_zero (show newer ≠ 0 by omega)
  rw [generationOf_succ, generationOf_succ] at same
  have congruent : former % (2 ^ 32 - 1) = latter % (2 ^ 32 - 1) := by omega
  omega

/-! ## Records -/

/-- The record of a published lease. -/
def recordOf (lease : Lease) : PoolMeta :=
  ⟨lease.generation, lease.readOff, lease.len, lease.generation⟩

/-- The stores still to be made invalidate a record: none was made, or the record is
invalid already, or none is left. -/
structure Clearing (record : PoolMeta) (stores : List Store) : Prop where
  suffix : stores <:+ invalidatePoolMeta
  begun : stores = [] ∨ stores = invalidatePoolMeta ∨ record.generationBegin = 0

/-- The first store invalidates, and the others keep it so. -/
theorem Clearing.store {record : PoolMeta} {store : Store} {rest : List Store}
    (clearing : Clearing record (store :: rest)) :
    (record.write store).generationBegin = 0 ∧ Clearing (record.write store) rest := by
  have invalid : (record.write store).generationBegin = 0 := by
    rcases clearing.begun with none | full | begun
    · exact nomatch none
    · obtain ⟨rfl, -⟩ := List.cons.inj full
      rfl
    · have tail := clearing.suffix
      simp only [invalidatePoolMeta, List.suffix_cons_iff, List.cons.injEq, List.suffix_nil] at tail
      rcases tail with ⟨rfl, -⟩ | ⟨rfl, -⟩ | ⟨rfl, -⟩ | ⟨rfl, -⟩ | impossible
      · rfl
      · exact begun
      · exact begun
      · exact begun
      · exact nomatch impossible
  exact ⟨invalid, (List.suffix_cons store rest).trans clearing.suffix, Or.inr (Or.inr invalid)⟩

/-- The stores still to be made publish a lease. -/
structure Publishing (lease : Lease) (record : PoolMeta) (stores : List Store) : Prop where
  suffix : stores <:+ publishPoolMeta lease
  begun : stores = publishPoolMeta lease ∨ record.generationBegin = 0
  result : stores.foldl PoolMeta.write record = recordOf lease

/-- Before the last store the record is invalid. -/
theorem Publishing.store {lease : Lease} {record : PoolMeta} {store next : Store}
    {rest : List Store} (publishing : Publishing lease record (store :: next :: rest)) :
    (record.write store).generationBegin = 0 ∧
      Publishing lease (record.write store) (next :: rest) := by
  have invalid : (record.write store).generationBegin = 0 := by
    rcases publishing.begun with full | begun
    · obtain ⟨rfl, -⟩ := List.cons.inj full
      rfl
    · have tail := publishing.suffix
      simp only [publishPoolMeta, List.suffix_cons_iff, List.cons.injEq, List.suffix_nil] at tail
      rcases tail with ⟨rfl, -⟩ | ⟨rfl, -⟩ | ⟨rfl, -⟩ | ⟨rfl, -⟩ | ⟨-, impossible, -⟩ | impossible
      · rfl
      · exact begun
      · exact begun
      · exact begun
      all_goals exact nomatch impossible
  exact ⟨invalid, (List.suffix_cons store _).trans publishing.suffix, Or.inr invalid,
    publishing.result⟩

/-- The last store makes the record of the lease. -/
theorem Publishing.last {lease : Lease} {record : PoolMeta} {store : Store}
    (publishing : Publishing lease record [store]) : record.write store = recordOf lease :=
  publishing.result

theorem publishing_start (lease : Lease) (record : PoolMeta) :
    Publishing lease record (publishPoolMeta lease) :=
  ⟨List.suffix_rfl, Or.inl rfl, rfl⟩

/-! ## The invariant -/

/-- A lease was issued by a publication. -/
structure Issued (cfg : Config) (publications : Nat → Nat) (lease : Lease) : Prop where
  units : lease.poolUnits = chunkCountFor lease.len
  readOff : lease.readOff = cfg.poolReadOff + lease.poolUnit * maxChunkValueBytes
  generation : lease.generation = generationOf lease.index
  positive : 0 < lease.index
  counted : lease.index ≤ publications lease.slot

/-- The value in the extent of a lease. -/
def content (memory : Nat → List UInt8) (lease : Lease) : List UInt8 :=
  Chunked.gather maxChunkValueBytes 0 (chunkCountFor lease.len) lease.len
    fun index => memory (lease.poolUnit + index)

/-- An entry was acknowledged with a publication of its slot. If that is still the last
one, the record is invalid or its extent is that of the host value and has the bytes. -/
structure Acknowledged (state : State) (entry : Entry) : Prop where
  generation : entry.hostGeneration = generationOf entry.index
  positive : 0 < entry.index
  latest : ∃ latest, state.published entry.slot = some latest ∧ entry.index ≤ latest.index ∧
    (entry.index = latest.index → (state.poolMeta entry.slot).generationBegin = 0 ∨
      (state.holding (.hostValue entry.slot) = some latest ∧
        content state.memory latest = entry.bytes))

/-- Records, leases and entries agree with the publications. -/
structure Coherent (cfg : Config) (state : State) : Prop where
  generations : ∀ slot, state.generations slot = generationOf (state.publications slot)
  issued : ∀ holder lease, state.holding holder = some lease → Issued cfg state.publications lease
  ofSlot : ∀ slot lease, state.holding (.hostValue slot) = some lease → lease.slot = slot
  published : ∀ slot lease, state.published slot = some lease →
    Issued cfg state.publications lease ∧ lease.slot = slot
  records : ∀ slot, (state.poolMeta slot).generationBegin ≠ 0 →
    ∃ lease, state.published slot = some lease ∧ state.poolMeta slot = recordOf lease
  received : ∀ entry ∈ state.received, entry.hostGeneration = 0 ∨ Acknowledged state entry
  entries : ∀ slot entry, state.entries slot = some entry →
    entry ∈ state.received ∧ entry.slot = slot
  internal : cfg.mode = .internal → ∀ slot lease, state.holding (.hostValue slot) = some lease →
    state.published slot = some lease

/-- The reserved extent is that of the last publication of the slot, no entry has its
generation, and the first units of the value are in it. -/
structure Newest (state : State) (slot : Nat) (value : List UInt8) (pushed : Nat) (lease : Lease) :
    Prop where
  published : state.published slot = some lease
  unread : ∀ entry ∈ state.received, entry.slot = slot →
    entry.hostGeneration = 0 ∨ entry.index < lease.index
  filled : ∀ index < pushed,
    state.memory (lease.poolUnit + index) = Chunked.chunkAt maxChunkValueBytes value index

/-- The stores of a drop invalidate the record if it is that of the dropped lease, and
only then. -/
structure Dropping (cfg : Config) (state : State) (slot : Nat) (stores : List Store) : Prop where
  clearing : Clearing (state.poolMeta slot) stores
  own : ∀ lease, state.holding (.hostValue slot) = some lease → state.published slot = some lease →
    stores = [] → (state.poolMeta slot).generationBegin = 0
  others : stores ≠ [] → cfg.mode = .external → ∃ lease latest,
    state.holding (.hostValue slot) = some lease ∧ state.published slot = some latest ∧
      latest.generation = lease.generation

/-- The write-through that waits while a host value is dropped. -/
def AfterDrop.waiting (slot : Nat) : AfterDrop → Option (Nat × List UInt8 × Nat)
  | .done | .reserve _ => none
  | .replace value => some (slot, value, chunkCountFor value.length)
  | .resume waiting value pushed => some (waiting, value, pushed)

/-- What the phase says about the record and the reserved extent. -/
def Ordering (cfg : Config) (state : State) : Prop :=
  match state.phase with
  | .idle | .closed => True
  | .dropping slot stores next =>
    Dropping cfg state slot stores ∧
      ∀ waiting value pushed lease, next.waiting slot = some (waiting, value, pushed) →
        state.reserved = some lease → Newest state waiting value pushed lease
  | .publishing slot _ stores => ∃ lease, state.reserved = some lease ∧
      Publishing lease (state.poolMeta slot) stores ∧
      ∀ latest, state.published slot = some latest → latest.index < lease.index
  | .receiving slot value pushed => ∀ lease, state.reserved = some lease →
      Newest state slot value pushed lease
  | .cancelling slot stores => Clearing (state.poolMeta slot) stores

/-- The whole invariant. -/
structure Locked (cfg : Config) (state : State) : Prop where
  sound : Sound cfg state
  coherent : Coherent cfg state
  ordering : Ordering cfg state

/-! ## What the operations keep -/

theorem Issued.mono {publications more : Nat → Nat} {lease : Lease}
    (issued : Issued cfg publications lease) (grown : ∀ slot, publications slot ≤ more slot) :
    Issued cfg more lease :=
  { issued with counted := Nat.le_trans issued.counted (grown lease.slot) }

/-- An acknowledged entry stays so if valid records stay and the extent of the last
publication stays with the slot or its record gets invalid. -/
theorem Acknowledged.kept {entry : Entry} (acknowledged : Acknowledged state entry)
    (published : after.published entry.slot = state.published entry.slot)
    (invalid : (state.poolMeta entry.slot).generationBegin = 0 →
      (after.poolMeta entry.slot).generationBegin = 0)
    (value : ∀ latest, state.published entry.slot = some latest →
      state.holding (.hostValue entry.slot) = some latest →
        (after.poolMeta entry.slot).generationBegin = 0 ∨
          (after.holding (.hostValue entry.slot) = some latest ∧
            content after.memory latest = content state.memory latest)) :
    Acknowledged after entry := by
  obtain ⟨latest, isLatest, ordered, current⟩ := acknowledged.latest
  refine ⟨acknowledged.generation, acknowledged.positive, latest, published.trans isLatest, ordered,
    fun same => ?_⟩
  rcases current same with begun | ⟨holds, bytes⟩
  · exact Or.inl (invalid begun)
  · rcases value latest isLatest holds with begun | ⟨stillHolds, unchanged⟩
    · exact Or.inl begun
    · exact Or.inr ⟨stillHolds, unchanged.trans bytes⟩

/-- The free extents and the phase are of no matter. -/
theorem Coherent.elsewhere (coherent : Coherent cfg state) (free : List Extent) (total : Nat)
    (phase : Phase) (stopped : Bool) :
    Coherent cfg { state with
      poolFree := free, poolUnitsTotal := total, phase := phase, stopped := stopped } :=
  ⟨coherent.generations, coherent.issued, coherent.ofSlot, coherent.published, coherent.records,
    fun entry member => (coherent.received entry member).imp id fun acknowledged =>
      acknowledged.kept rfl id fun _ _ holds => Or.inr ⟨holds, rfl⟩,
    coherent.entries, coherent.internal⟩

/-- A store that leaves the record invalid. -/
theorem Coherent.invalidate (coherent : Coherent cfg state) {slot : Nat} {store : Store}
    (invalid : ((state.poolMeta slot).write store).generationBegin = 0) :
    Coherent cfg (writeMeta slot store state) := by
  have begun : ∀ other, (state.poolMeta other).generationBegin = 0 →
      ((writeMeta slot store state).poolMeta other).generationBegin = 0 := by
    intro other zero
    by_cases same : other = slot
    · subst same
      simpa [writeMeta] using invalid
    · simpa [writeMeta, same] using zero
  refine ⟨coherent.generations, coherent.issued, coherent.ofSlot, coherent.published,
    fun other valid => ?_, fun entry member => ?_, coherent.entries, coherent.internal⟩
  · by_cases same : other = slot
    · subst same
      simp [writeMeta, invalid] at valid
    · simp only [writeMeta, update_of_ne same] at valid ⊢
      exact coherent.records other valid
  · exact (coherent.received entry member).imp id fun acknowledged =>
      acknowledged.kept rfl (begun entry.slot) fun _ _ holds => Or.inr ⟨holds, rfl⟩

/-- What a holder holds once a host value is erased. -/
theorem holding_eraseValue {slot : Nat} {holder : Holder} {lease : Lease}
    (holds : (eraseValue slot state).holding holder = some lease) :
    holder ≠ .hostValue slot ∧ state.holding holder = some lease := by
  cases holder with
  | hostValue other =>
    by_cases same : other = slot
    · subst same
      simp [State.holding] at holds
    · exact ⟨by simpa using same, by simpa [State.holding, update_of_ne same] using holds⟩
  | writeThrough => exact ⟨(fun same => by cases same), holds⟩

/-- A host value is erased after the record of its lease is invalid. -/
theorem Coherent.erase (coherent : Coherent cfg state) {slot : Nat}
    (own : ∀ lease, state.holding (.hostValue slot) = some lease →
      state.published slot = some lease → (state.poolMeta slot).generationBegin = 0) :
    Coherent cfg (eraseValue slot state) := by
  refine ⟨coherent.generations, fun holder lease holds => ?_, fun other lease holds => ?_,
    coherent.published, coherent.records, fun entry member => ?_, coherent.entries,
    fun internal other lease holds => ?_⟩
  · exact coherent.issued holder lease (holding_eraseValue holds).2
  · exact coherent.ofSlot other lease (holding_eraseValue holds).2
  · refine (coherent.received entry member).imp id fun acknowledged =>
      acknowledged.kept rfl id fun latest isLatest holds => ?_
    by_cases same : entry.slot = slot
    · rw [same] at holds isLatest ⊢
      exact Or.inl (own latest holds isLatest)
    · refine Or.inr ⟨?_, rfl⟩
      simpa [State.holding, update_of_ne same] using holds
  · exact coherent.internal internal other lease (holding_eraseValue holds).2

/-- The write-through gives up its extent. -/
theorem Coherent.lose (coherent : Coherent cfg state) :
    Coherent cfg { state with reserved := none } := by
  have before : ∀ holder lease, ({ state with reserved := none } : State).holding holder = some lease →
      state.holding holder = some lease := by
    intro holder lease holds
    cases holder with
    | hostValue slot => exact holds
    | writeThrough => exact nomatch holds
  exact ⟨coherent.generations, fun holder lease holds => coherent.issued holder lease
      (before holder lease holds), coherent.ofSlot, coherent.published, coherent.records,
    fun entry member => (coherent.received entry member).imp id fun acknowledged =>
      acknowledged.kept rfl id fun _ _ holds => Or.inr ⟨holds, rfl⟩,
    coherent.entries, coherent.internal⟩

/-- A new generation and a lease that carries it. -/
theorem Coherent.reserve (coherent : Coherent cfg state) (slot : Nat) (lease : Lease)
    (ofSlot : lease.slot = slot) (units : lease.poolUnits = chunkCountFor lease.len)
    (readOff : lease.readOff = cfg.poolReadOff + lease.poolUnit * maxChunkValueBytes)
    (generation : lease.generation = nextPoolGeneration (state.generations slot))
    (index : lease.index = state.publications slot + 1) :
    Coherent cfg { state with
      reserved := some lease
      generations := update state.generations slot lease.generation
      publications := update state.publications slot (state.publications slot + 1) } := by
  have generated : lease.generation = generationOf (state.publications slot + 1) := by
    rw [generation, coherent.generations, generationOf]
  have grown : ∀ other, state.publications other ≤
      update state.publications slot (state.publications slot + 1) other := by
    intro other
    by_cases same : other = slot
    · subst same
      simp
    · simp [update_of_ne same]
  refine ⟨fun other => ?_, fun holder other holds => ?_, coherent.ofSlot,
    fun other latest isLatest => ?_, coherent.records, fun entry member => ?_, coherent.entries,
    coherent.internal⟩
  · by_cases same : other = slot
    · subst same
      simpa using generated
    · simpa [update_of_ne same] using coherent.generations other
  · cases holder with
    | hostValue slot => exact (coherent.issued (.hostValue slot) other holds).mono grown
    | writeThrough =>
      obtain rfl := Option.some.inj holds
      refine ⟨units, readOff, index ▸ generated, by omega, ?_⟩
      simp [ofSlot, index]
  · obtain ⟨issued, same⟩ := coherent.published other latest isLatest
    exact ⟨issued.mono grown, same⟩
  · exact (coherent.received entry member).imp id fun acknowledged =>
      acknowledged.kept rfl id fun _ _ holds => Or.inr ⟨holds, rfl⟩

/-- The last store of a publication. -/
theorem Coherent.publish (coherent : Coherent cfg state) {slot : Nat} {value : List UInt8}
    {store : Store} {lease : Lease} (reserved : state.reserved = some lease)
    (ofSlot : lease.slot = slot) (result : (state.poolMeta slot).write store = recordOf lease)
    (newer : ∀ latest, state.published slot = some latest → latest.index < lease.index)
    (empty : cfg.mode = .internal → state.hostValues slot = none) :
    Coherent cfg (finishPublish slot value (writeMeta slot store state)) := by
  have published : ∀ other, other ≠ slot →
      (finishPublish slot value (writeMeta slot store state)).published other =
        state.published other := fun other different => update_of_ne different ..
  have records : ∀ other, other ≠ slot →
      (finishPublish slot value (writeMeta slot store state)).poolMeta other =
        state.poolMeta other := fun other different => update_of_ne different ..
  have latest : (finishPublish slot value (writeMeta slot store state)).published slot =
      some lease := (update_self ..).trans reserved
  refine ⟨coherent.generations, coherent.issued, coherent.ofSlot, fun other found isLatest => ?_,
    fun other valid => ?_, fun entry member => ?_, coherent.entries,
    fun internal other found holds => ?_⟩
  · by_cases same : other = slot
    · subst same
      obtain rfl := Option.some.inj (latest.symm.trans isLatest)
      exact ⟨coherent.issued .writeThrough lease reserved, ofSlot⟩
    · exact coherent.published other found ((published other same).symm.trans isLatest)
  · by_cases same : other = slot
    · subst same
      exact ⟨lease, latest, (update_self ..).trans result⟩
    · rw [records other same] at valid ⊢
      rw [published other same]
      exact coherent.records other valid
  · refine (coherent.received entry member).imp id fun acknowledged => ?_
    by_cases same : entry.slot = slot
    · obtain ⟨former, isFormer, ordered, -⟩ := acknowledged.latest
      rw [same] at isFormer
      have less := newer former isFormer
      exact ⟨acknowledged.generation, acknowledged.positive, lease, same ▸ latest, by omega,
        fun equal => absurd equal (by omega)⟩
    · refine acknowledged.kept (published _ same) ?_ fun _ _ holds => Or.inr ⟨holds, rfl⟩
      rw [records _ same]
      exact id
  · have different : other ≠ slot := by
      rintro rfl
      have gone : state.holding (.hostValue other) = none := by
        simp [State.holding, empty internal]
      cases gone.symm.trans holds
    exact (published other different).trans (coherent.internal internal other found holds)

/-- A fully received value becomes the host value of a slot that has none. -/
theorem Coherent.keep (coherent : Coherent cfg state) {slot : Nat} {value : List UInt8}
    (vacant : state.holding (.hostValue slot) = none)
    (newest : ∀ lease, state.reserved = some lease → Serves lease slot value ∧
      Newest state slot value (chunkCountFor value.length) lease) :
    Coherent cfg (keepValue slot value state) := by
  have elsewhere : ∀ (held : HostValue) other, other ≠ slot →
      update state.hostValues slot (some held) other = state.hostValues other :=
    fun _ other different => update_of_ne different ..
  dsimp only [keepValue]
  split
  · next lease reserved =>
    obtain ⟨serves, new⟩ := newest lease reserved
    have issued := coherent.issued .writeThrough lease reserved
    have bytes : content state.memory lease = value := by
      unfold content
      rw [serves.len, Chunked.gather_congr new.filled]
      exact Chunked.gather_chunkAt (le_chunkCountFor_mul value.length)
    refine ⟨coherent.generations, fun holder other holds => ?_, fun other found holds => ?_,
      coherent.published, coherent.records, fun entry member => ?_, fun other entry found => ?_,
      fun internal other found holds => ?_⟩
    · cases holder with
      | hostValue place =>
        by_cases same : place = slot
        · subst same
          obtain rfl : lease = other := by simpa [State.holding, HostValue.lease] using holds
          exact issued
        · simp only [State.holding, elsewhere _ place same] at holds
          exact coherent.issued (.hostValue place) other holds
      | writeThrough => cases holds
    · by_cases same : other = slot
      · subst same
        obtain rfl : lease = found := by simpa [State.holding, HostValue.lease] using holds
        exact serves.slot
      · simp only [State.holding, elsewhere _ other same] at holds
        exact coherent.ofSlot other found holds
    · rcases List.mem_cons.mp member with rfl | before
      · refine Or.inr ⟨issued.generation, issued.positive, lease, new.published, Nat.le_refl _,
          fun _ => Or.inr ⟨?_, bytes⟩⟩
        simp [State.holding, HostValue.lease]
      · rcases coherent.received entry before with heap | acknowledged
        · exact Or.inl heap
        · by_cases same : entry.slot = slot
          · rcases new.unread entry before same with heap | older
            · exact Or.inl heap
            · refine Or.inr ⟨acknowledged.generation, acknowledged.positive, lease,
                same ▸ new.published, by omega, fun equal => absurd equal (by omega)⟩
          · refine Or.inr (acknowledged.kept rfl id fun latest _ holds => Or.inr ⟨?_, rfl⟩)
            simpa only [State.holding, elsewhere _ _ same] using holds
    · obtain ⟨member, ofSlot⟩ := coherent.entries other entry found
      exact ⟨List.mem_cons_of_mem _ member, ofSlot⟩
    · by_cases same : other = slot
      · subst same
        obtain rfl : lease = found := by simpa [State.holding, HostValue.lease] using holds
        exact new.published
      · simp only [State.holding, elsewhere _ other same] at holds
        exact coherent.internal internal other found holds
  · next reserved =>
    have before : ∀ {after : State} {holder lease}, after.holding holder = some lease →
        after.hostValues = update state.hostValues slot (some (.heap value)) →
        after.reserved = state.reserved → state.holding holder = some lease := by
      intro after holder lease holds values same
      cases holder with
      | hostValue other =>
        by_cases here : other = slot
        · subst here
          simp [State.holding, values, HostValue.lease] at holds
        · simpa [State.holding, values, elsewhere _ other here] using holds
      | writeThrough => exact same.symm.trans holds
    refine ⟨coherent.generations, fun holder other holds => ?_, fun other found holds => ?_,
      coherent.published, coherent.records, fun entry member => ?_, fun other entry found => ?_,
      fun internal other found holds => ?_⟩
    · exact coherent.issued holder other (before holds rfl rfl)
    · exact coherent.ofSlot other found (before holds rfl rfl)
    · rcases List.mem_cons.mp member with rfl | former
      · exact Or.inl rfl
      · refine (coherent.received entry former).imp id fun acknowledged =>
          acknowledged.kept rfl id fun latest _ holds => Or.inr ⟨?_, rfl⟩
        have different : entry.slot ≠ slot := by
          intro same
          rw [same, vacant] at holds
          cases holds
        simpa only [State.holding, elsewhere _ _ different] using holds
    · obtain ⟨member, ofSlot⟩ := coherent.entries other entry found
      exact ⟨List.mem_cons_of_mem _ member, ofSlot⟩
    · exact coherent.internal internal other found (before holds rfl rfl)

/-- A push into the reserved extent touches no host value. -/
theorem Coherent.push (coherent : Coherent cfg state) (sound : Sound cfg state) {lease : Lease}
    {pushed : Nat} {chunk : List UInt8} (reserved : state.reserved = some lease)
    (inside : pushed < lease.poolUnits) :
    Coherent cfg { state with
      memory := update state.memory (lease.poolUnit + pushed) chunk } := by
  have target : lease.extent.Mem (lease.poolUnit + pushed) := by
    simp only [Extent.Mem, Extent.finish, Lease.extent]
    omega
  have held : state.held .writeThrough = some lease.extent := by
    simp [State.held, State.holding, reserved]
  have untouched : ∀ slot latest, state.holding (.hostValue slot) = some latest →
      content (update state.memory (lease.poolUnit + pushed) chunk) latest =
        content state.memory latest := by
    intro slot latest holds
    apply Chunked.gather_congr
    intro index below
    apply update_of_ne
    intro same
    have units := (coherent.issued (.hostValue slot) latest holds).units
    have owns : state.held (.hostValue slot) = some latest.extent := by simp [State.held, holds]
    have member : latest.extent.Mem (lease.poolUnit + pushed) := by
      simp only [Extent.Mem, Extent.finish, Lease.extent]
      omega
    cases sound.accounts.once _ _ _ _ _ owns held member target
  exact ⟨coherent.generations, coherent.issued, coherent.ofSlot, coherent.published,
    coherent.records,
    fun entry member => (coherent.received entry member).imp id fun acknowledged =>
      acknowledged.kept rfl id fun latest _ holds =>
        Or.inr ⟨holds, untouched entry.slot latest holds⟩,
    coherent.entries, coherent.internal⟩

/-! ## Steps -/

/-- The stores that begin a drop. -/
theorem Coherent.dropping (coherent : Coherent cfg state) (slot : Nat) :
    Dropping cfg state slot (dropStores cfg slot state) := by
  have full : ∀ record, Clearing record invalidatePoolMeta := fun record =>
    ⟨List.suffix_rfl, Or.inr (Or.inl rfl)⟩
  have empty : ∀ record, Clearing record [] := fun record => ⟨List.nil_suffix, Or.inl rfl⟩
  have unleased : ∀ {value lease}, state.hostValues slot = value →
      state.holding (.hostValue slot) = some lease → value.bind HostValue.lease = some lease := by
    rintro value lease rfl holds
    exact holds
  unfold dropStores
  split
  · next absent =>
    exact ⟨empty _, fun lease holds => (by cases unleased absent holds),
      fun none => absurd rfl none⟩
  · next value internal present =>
    exact ⟨full _, fun _ _ _ none => (by cases none),
      fun _ external => (by cases internal.symm.trans external)⟩
  · next lease external mapped =>
    have holds : state.holding (.hostValue slot) = some lease := by
      simp [State.holding, mapped, HostValue.lease]
    have nonzero : lease.generation ≠ 0 := by
      have issued := coherent.issued (.hostValue slot) lease holds
      rw [issued.generation]
      exact generationOf_ne_zero issued.positive
    unfold invalidatePoolMetaIfGeneration
    rw [if_neg nonzero]
    split
    · next mismatch =>
      refine ⟨empty _, fun other holds' published _ => ?_, fun none => absurd rfl none⟩
      obtain rfl := Option.some.inj (holds.symm.trans holds')
      by_contra valid
      obtain ⟨latest, isLatest, record⟩ := coherent.records slot valid
      obtain rfl := Option.some.inj (published.symm.trans isLatest)
      simp [record, recordOf] at mismatch
    · next matched =>
      refine ⟨full _, fun _ _ _ none => (by cases none), fun _ _ => ?_⟩
      have begins : (state.poolMeta slot).generationBegin = lease.generation := by
        by_contra different
        exact matched (Or.inl different)
      obtain ⟨latest, isLatest, record⟩ := coherent.records slot (begins ▸ nonzero)
      refine ⟨lease, latest, holds, isLatest, ?_⟩
      rw [← begins, record]
      rfl
  · next bytes external heap =>
    exact ⟨empty _, fun lease holds => (by cases unleased heap holds),
      fun none => absurd rfl none⟩

/-- Beginning to publish, or going without an extent. -/
theorem reserve_locked {slot : Nat} {value : List UInt8} {prefersMapped : Bool}
    (coherent : Coherent cfg state) (vacant : state.reserved = none) :
    Coherent cfg (reserve cfg slot value prefersMapped state) ∧
      Ordering cfg (reserve cfg slot value prefersMapped state) := by
  dsimp only [reserve]
  split
  · refine ⟨coherent.elsewhere _ _ _ _, fun lease reserved => ?_⟩
    rw [vacant] at reserved
    exact nomatch reserved
  · next unit remaining found =>
    refine ⟨(coherent.reserve slot _ rfl rfl rfl rfl rfl).elsewhere _ _ _ _, _, rfl,
      publishing_start _ _, fun latest isLatest => ?_⟩
    obtain ⟨issued, ofSlot⟩ := coherent.published slot latest isLatest
    have counted := issued.counted
    rw [ofSlot] at counted
    exact Nat.lt_succ_of_le counted

/-- A kept value leaves the worker idle. -/
theorem keepValue_ordering (slot : Nat) (value : List UInt8) (state : State) :
    Ordering cfg (keepValue slot value state) := by
  have idle : (keepValue slot value state).phase = .idle := by
    unfold keepValue
    split <;> rfl
  simp only [Ordering, idle]

theorem advance_locked (locked : Locked cfg state) (taken : advance cfg state = some after) :
    Coherent cfg after ∧ Ordering cfg after := by
  obtain ⟨sound, coherent, ordering⟩ := locked
  have shape := sound.shape
  unfold advance at taken
  split at taken
  · next slot store rest next dropping =>
    simp only [Ordering, dropping] at ordering
    obtain ⟨⟨clearing, -, others⟩, newest⟩ := ordering
    obtain ⟨invalid, clears⟩ := clearing.store
    obtain rfl := Option.some.inj taken
    have stored : (writeMeta slot store state).poolMeta slot =
        (state.poolMeta slot).write store := update_self ..
    refine ⟨(coherent.invalidate invalid).elsewhere _ _ _ _, ⟨?_, ?_, ?_⟩, ?_⟩
    · exact stored ▸ clears
    · exact fun _ _ _ _ => stored ▸ invalid
    · exact fun _ => others (List.cons_ne_nil _ _)
    · intro waiting value pushed lease waits reserved
      obtain ⟨published, unread, filled⟩ := newest waiting value pushed lease waits reserved
      exact ⟨published, unread, filled⟩
  · next slot next dropping =>
    simp only [Ordering, dropping] at ordering
    simp only [Shape, dropping] at shape
    obtain ⟨⟨-, own, -⟩, newest⟩ := ordering
    have erased : Coherent cfg (eraseValue slot state) :=
      coherent.erase fun lease holds published => own lease holds published rfl
    obtain rfl := Option.some.inj taken
    cases next with
    | done => exact ⟨erased.elsewhere _ _ _ _, trivial⟩
    | reserve value => exact reserve_locked erased shape.1
    | replace value =>
      have vacant : (eraseValue slot state).holding (.hostValue slot) = none := by
        simp [State.holding]
      refine ⟨erased.keep vacant fun lease reserved => ?_, ?_⟩
      · obtain ⟨published, unread, filled⟩ := newest slot value _ lease rfl reserved
        exact ⟨shape.2 lease reserved, published, unread, filled⟩
      · exact keepValue_ordering slot value _
    | resume waiting value pushed =>
      refine ⟨erased.elsewhere _ _ _ _, fun lease reserved => ?_⟩
      obtain ⟨published, unread, filled⟩ := newest waiting value pushed lease rfl reserved
      exact ⟨published, unread, filled⟩
  · next slot value store publishing =>
    simp only [Ordering, publishing] at ordering
    simp only [Shape, publishing] at shape
    obtain ⟨lease, reserved, publish, newer⟩ := ordering
    obtain ⟨⟨same, sameReserved, serves⟩, empty⟩ := shape
    obtain rfl := Option.some.inj (reserved.symm.trans sameReserved)
    obtain rfl := Option.some.inj taken
    refine ⟨coherent.publish reserved serves.slot publish.last newer empty,
      fun other isReserved => ⟨?_, fun entry member ofSlot => ?_, ?_⟩⟩
    · exact (update_self ..).trans isReserved
    · obtain rfl := Option.some.inj (reserved.symm.trans isReserved)
      refine (coherent.received entry member).imp id fun acknowledged => ?_
      obtain ⟨latest, isLatest, ordered, -⟩ := acknowledged.latest
      exact Nat.lt_of_le_of_lt ordered (newer latest (ofSlot ▸ isLatest))
    · exact fun index below => absurd below (Nat.not_lt_zero index)
  · next slot value store rest several publishing =>
    simp only [Ordering, publishing] at ordering
    obtain ⟨lease, reserved, publish, newer⟩ := ordering
    obtain rfl := Option.some.inj taken
    have stored : (writeMeta slot store state).poolMeta slot =
        (state.poolMeta slot).write store := update_self ..
    cases rest with
    | nil => exact (several rfl).elim
    | cons next rest =>
      obtain ⟨invalid, continues⟩ := publish.store
      exact ⟨(coherent.invalidate invalid).elsewhere _ _ _ _, lease, reserved, stored ▸ continues,
        newer⟩
  · next slot store rest cancelling =>
    simp only [Ordering, cancelling] at ordering
    obtain ⟨invalid, clears⟩ := ordering.store
    obtain rfl := Option.some.inj taken
    have stored : (writeMeta slot store state).poolMeta slot =
        (state.poolMeta slot).write store := update_self ..
    refine ⟨(coherent.invalidate invalid).elsewhere _ _ _ _, ?_⟩
    show Clearing ((writeMeta slot store state).poolMeta slot) rest
    exact stored ▸ clears
  · obtain rfl := Option.some.inj taken
    exact ⟨coherent.lose.elsewhere _ _ _ _, trivial⟩
  · cases taken

theorem push_locked (locked : Locked cfg state) (taken : push state = some after) :
    Coherent cfg after ∧ Ordering cfg after := by
  obtain ⟨sound, coherent, ordering⟩ := locked
  unfold push at taken
  split at taken
  · next slot value pushed lease receiving reserved =>
    simp only [Ordering, receiving] at ordering
    obtain ⟨published, unread, filled⟩ := ordering lease reserved
    split at taken
    · next inside =>
      obtain rfl := Option.some.inj taken
      refine ⟨(coherent.push sound reserved inside).elsewhere _ _ _ _, fun other same => ?_⟩
      obtain rfl := Option.some.inj (reserved.symm.trans same)
      refine ⟨published, unread, fun index below => ?_⟩
      by_cases last : index = pushed
      · subst last
        exact update_self ..
      · exact (update_of_ne (by omega) ..).trans (filled index (by omega))
    · exact nomatch taken
  · exact nomatch taken

theorem complete_locked (locked : Locked cfg state) (taken : complete cfg state = some after) :
    Coherent cfg after ∧ Ordering cfg after := by
  obtain ⟨sound, coherent, ordering⟩ := locked
  have shape := sound.shape
  unfold complete at taken
  split at taken
  · next slot value pushed receiving =>
    simp only [Ordering, receiving] at ordering
    simp only [Shape, receiving] at shape
    split at taken
    · cases taken
    · next arrived =>
      have full : ∀ lease, state.reserved = some lease →
          Newest state slot value (chunkCountFor value.length) lease := by
        intro lease reserved
        have all : pushed = chunkCountFor value.length := by
          by_contra short
          exact arrived ⟨by simp [reserved], short⟩
        exact all ▸ ordering lease reserved
      split at taken
      · obtain rfl := Option.some.inj taken
        obtain ⟨clearing, own, others⟩ := coherent.dropping slot
        refine ⟨coherent.elsewhere _ _ _ _, ⟨clearing, own, others⟩, ?_⟩
        rintro waiting other pushed lease same reserved
        obtain ⟨rfl, rfl, rfl⟩ : slot = waiting ∧ value = other ∧
            chunkCountFor value.length = pushed := by
          simpa [AfterDrop.waiting] using same
        obtain ⟨published, unread, filled⟩ := full lease reserved
        exact ⟨published, unread, filled⟩
      · next vacant =>
        obtain rfl := Option.some.inj taken
        have absent : state.hostValues slot = none := by
          cases mode : cfg.mode with
          | internal => exact shape.2 mode
          | external => simpa [mode] using vacant
        refine ⟨coherent.keep (by simp [State.holding, absent]) fun lease reserved =>
          ⟨shape.1 lease reserved, full lease reserved⟩, ?_⟩
        exact keepValue_ordering slot value _
  · cases taken

/-- A failed write-through invalidates its own record, or leaves it. -/
theorem failure_locked (locked : Locked cfg state) {action : Action}
    (failure : action = .cancel ∨ action = .abandon ∨ action = .throw)
    (taken : step cfg state action = some after) : Coherent cfg after ∧ Ordering cfg after := by
  have coherent := locked.coherent
  have full : ∀ record, Clearing record invalidatePoolMeta := fun record =>
    ⟨List.suffix_rfl, Or.inr (Or.inl rfl)⟩
  rcases failure with rfl | rfl | rfl
  · simp only [step, cancel] at taken
    split at taken
    · split at taken
      · obtain rfl := Option.some.inj taken
        exact ⟨coherent.elsewhere _ _ _ _, full _⟩
      · obtain rfl := Option.some.inj taken
        exact ⟨coherent.elsewhere _ _ _ _, trivial⟩
    · cases taken
  · simp only [step, abandon] at taken
    split at taken
    · obtain rfl := Option.some.inj taken
      refine ⟨coherent.elsewhere _ _ _ _, ?_⟩
      simp only [Ordering, invalidatePoolMetaIfGeneration]
      split
      · exact ⟨List.nil_suffix, Or.inl rfl⟩
      · split
        · exact ⟨List.nil_suffix, Or.inl rfl⟩
        · exact full _
    · cases taken
  · simp only [step, throw] at taken
    split at taken
    · obtain rfl := Option.some.inj taken
      exact ⟨coherent.lose.elsewhere _ _ _ _, trivial⟩
    · obtain rfl := Option.some.inj taken
      exact ⟨coherent.lose.elsewhere _ _ _ _, trivial⟩
    · cases taken

/-- Entries come from received values and go at any time. -/
theorem Coherent.setEntries (coherent : Coherent cfg state) {entries : Nat → Option Entry}
    (known : ∀ slot entry, entries slot = some entry → entry ∈ state.received ∧ entry.slot = slot) :
    Coherent cfg { state with entries := entries } :=
  ⟨coherent.generations, coherent.issued, coherent.ofSlot, coherent.published, coherent.records,
    fun entry member => (coherent.received entry member).imp id fun acknowledged =>
      acknowledged.kept rfl id fun _ _ holds => Or.inr ⟨holds, rfl⟩,
    known, coherent.internal⟩

/-- A change of the entries is of no matter to the phase. -/
theorem Ordering.setEntries (ordering : Ordering cfg state) (entries : Nat → Option Entry) :
    Ordering cfg { state with entries := entries } := by
  have newest : ∀ {slot value pushed lease}, Newest state slot value pushed lease →
      Newest { state with entries := entries } slot value pushed lease :=
    fun new => ⟨new.published, new.unread, new.filled⟩
  unfold Ordering at ordering ⊢
  dsimp only
  split
  · trivial
  · trivial
  · next slot stores next phase =>
    rw [phase] at ordering
    obtain ⟨⟨clearing, own, others⟩, new⟩ := ordering
    exact ⟨⟨clearing, own, others⟩, fun waiting value pushed lease waits reserved =>
      newest (new waiting value pushed lease waits reserved)⟩
  · next slot value stores phase =>
    rw [phase] at ordering
    exact ordering
  · next slot value pushed phase =>
    rw [phase] at ordering
    exact fun lease reserved => newest (ordering lease reserved)
  · next slot stores phase =>
    rw [phase] at ordering
    exact ordering

/-- Every step keeps the invariant. -/
theorem step_locked {action : Action} (locked : Locked cfg state)
    (taken : step cfg state action = some after) : Locked cfg after := by
  suffices kept : Coherent cfg after ∧ Ordering cfg after from
    ⟨(step_keeps locked.sound taken).1, kept.1, kept.2⟩
  obtain ⟨sound, coherent, ordering⟩ := locked
  have shape := sound.shape
  cases action with
  | erase slot =>
    obtain ⟨clearing, own, others⟩ := coherent.dropping slot
    simp only [step, erase] at taken
    split at taken
    · split at taken
      · cases taken
      · obtain rfl := Option.some.inj taken
        exact ⟨coherent.elsewhere _ _ _ _, ⟨clearing, own, others⟩,
          fun _ _ _ _ impossible => by cases impossible⟩
    · next waiting value pushed receiving =>
      simp only [Ordering, receiving] at ordering
      split at taken
      · cases taken
      · obtain rfl := Option.some.inj taken
        refine ⟨coherent.elsewhere _ _ _ _, ⟨clearing, own, others⟩, ?_⟩
        intro target other count lease same reserved
        obtain ⟨rfl, rfl, rfl⟩ : waiting = target ∧ value = other ∧ pushed = count := by
          simpa [AfterDrop.waiting] using same
        obtain ⟨published, unread, filled⟩ := ordering lease reserved
        exact ⟨published, unread, filled⟩
    · cases taken
  | writeThrough slot value prefersMapped =>
    simp only [step, writeThrough] at taken
    split at taken
    · next idle =>
      simp only [Shape, idle.1] at shape
      split at taken
      · obtain rfl := Option.some.inj taken
        obtain ⟨clearing, own, others⟩ := coherent.dropping slot
        exact ⟨coherent.elsewhere _ _ _ _, ⟨clearing, own, others⟩,
          fun _ _ _ _ impossible => by cases impossible⟩
      · obtain rfl := Option.some.inj taken
        exact reserve_locked coherent shape
    · cases taken
  | advance => exact advance_locked ⟨sound, coherent, ordering⟩ taken
  | push => exact push_locked ⟨sound, coherent, ordering⟩ taken
  | complete => exact complete_locked ⟨sound, coherent, ordering⟩ taken
  | cancel => exact failure_locked ⟨sound, coherent, ordering⟩ (Or.inl rfl) taken
  | abandon => exact failure_locked ⟨sound, coherent, ordering⟩ (Or.inr (Or.inl rfl)) taken
  | throw => exact failure_locked ⟨sound, coherent, ordering⟩ (Or.inr (Or.inr rfl)) taken
  | commit entry =>
    simp only [step] at taken
    split at taken
    · next member =>
      obtain rfl := Option.some.inj taken
      refine ⟨coherent.setEntries fun slot other found => ?_, ordering.setEntries _⟩
      by_cases same : slot = entry.slot
      · rw [same, update_self] at found
        obtain rfl := Option.some.inj found
        exact ⟨member, same.symm⟩
      · rw [update_of_ne same] at found
        exact coherent.entries slot other found
    · cases taken
  | forget slot =>
    obtain rfl := Option.some.inj taken
    refine ⟨coherent.setEntries fun place entry found => ?_, ordering.setEntries _⟩
    by_cases same : place = slot
    · rw [same, update_self] at found
      cases found
    · rw [update_of_ne same] at found
      exact coherent.entries place entry found
  | close =>
    simp only [step, close] at taken
    split at taken
    · next closing =>
      simp only [Shape, closing.1] at shape
      obtain rfl := Option.some.inj taken
      refine ⟨⟨coherent.generations, fun holder lease holds => ?_, fun _ _ holds => (by cases holds),
        coherent.published, coherent.records, fun _ member => (by cases member),
        fun _ _ found => (by cases found), fun _ _ _ holds => (by cases holds)⟩, trivial⟩
      cases holder with
      | hostValue slot => cases holds
      | writeThrough => cases shape.symm.trans holds
    · cases taken

theorem start_locked (cfg : Config) : Locked cfg (start cfg) := by
  refine ⟨(start_keeps cfg).1, ⟨fun _ => rfl, fun holder lease holds => ?_, nofun, nofun,
    fun slot valid => absurd rfl valid, nofun, nofun, nofun⟩, trivial⟩
  cases holder <;> exact nomatch holds

/-- The invariant holds in every state that a run reaches. -/
theorem run_locked {trace : List Empty} (run : Run (Takes (move cfg)) (start cfg) trace state) :
    Locked cfg state := by
  apply run.invariant (Locked cfg) (start_locked cfg)
  rintro before events after locked ⟨action, taken⟩
  obtain ⟨next, stepped, same⟩ := Option.map_eq_some_iff.mp taken
  obtain ⟨rfl, -⟩ := Prod.mk.inj same
  exact step_locked locked stepped

/-! ## The guarantee -/

/-- What the check of the device may rely on. -/
structure ServesInPlace (cfg : Config) (state : State) : Prop where
  /-- A successful check, less than a full wrap after the publication it is for, finds
  the extent that the host value of the slot owns alone, with the bytes of the entry. -/
  serves : ∀ slot readOff, directPoolServe state slot = some readOff →
    (∀ entry, state.entries slot = some entry →
      state.publications slot < entry.index + (2 ^ 32 - 1)) →
    ∃ entry lease, state.entries slot = some entry ∧
      state.hostValues slot = some (.mapped lease) ∧
      lease.generation = entry.hostGeneration ∧ lease.len = entry.len ∧
      readOff = cfg.poolReadOff + lease.poolUnit * maxChunkValueBytes ∧
      content state.memory lease = entry.bytes ∧
      ∀ unit, lease.extent.Mem unit → ¬ Covers state.poolFree unit ∧
        ∀ holder other, state.holding holder = some other → other.extent.Mem unit →
          holder = .hostValue slot
  /-- The drop of a lease makes no store to the record of a newer publication. -/
  older : ∀ slot stores next lease latest, state.phase = .dropping slot stores next →
    state.hostValues slot = some (.mapped lease) → state.published slot = some latest →
    lease.index < latest.index → latest.index < lease.index + (2 ^ 32 - 1) → stores = []
  /-- No lease has generation zero. -/
  nonzero : ∀ holder lease, state.holding holder = some lease → lease.generation ≠ 0

/-- In-place serving reads only the right live extent: in every state of every run, at
any point between two stores to a record.

Proof: the record, when valid, is that of the last publication. Without a full wrap an
equal generation makes that the publication of the entry, whose extent stays with the
slot as long as the record is valid. -/
theorem serves_in_place {trace : List Empty}
    (run : Run (Takes (move cfg)) (start cfg) trace state) : ServesInPlace cfg state := by
  obtain ⟨sound, coherent, ordering⟩ := run_locked run
  constructor
  · intro slot readOff served near
    obtain ⟨entry, found, checked⟩ := Option.bind_eq_some_iff.mp served
    dsimp only at checked
    split at checked
    · next passes =>
      obtain ⟨nonzero, begins, -, -, length⟩ := passes
      obtain rfl := Option.some.inj checked
      obtain ⟨member, rfl⟩ := coherent.entries slot entry found
      have valid : (state.poolMeta entry.slot).generationBegin ≠ 0 := begins ▸ nonzero
      obtain ⟨latest, isLatest, record⟩ := coherent.records entry.slot valid
      rcases coherent.received entry member with heap | acknowledged
      · exact absurd heap nonzero
      obtain ⟨same, isSame, ordered, current⟩ := acknowledged.latest
      obtain rfl := Option.some.inj (isLatest.symm.trans isSame)
      obtain ⟨issued, ofSlot⟩ := coherent.published entry.slot latest isLatest
      have generations : latest.generation = entry.hostGeneration := by
        rw [record] at begins
        exact begins
      have equal : entry.index = latest.index := by
        apply generationOf_inj acknowledged.positive ordered
        · have counted := issued.counted
          rw [ofSlot] at counted
          exact Nat.lt_of_le_of_lt counted (near entry found)
        · rw [← acknowledged.generation, ← issued.generation, generations]
      rcases current equal with invalid | ⟨holds, bytes⟩
      · exact absurd invalid valid
      have mapped : state.hostValues entry.slot = some (.mapped latest) := by
        obtain ⟨value, present, isLease⟩ := Option.bind_eq_some_iff.mp holds
        cases value with
        | mapped lease =>
          obtain rfl := Option.some.inj isLease
          exact present
        | heap bytes => cases isLease
      have owns : state.held (.hostValue entry.slot) = some latest.extent := by
        simp [State.held, holds]
      refine ⟨entry, latest, found, mapped, generations, ?_, ?_, bytes, fun unit inside =>
        ⟨sound.accounts.notFree _ _ unit owns inside, fun holder other holdsOther insideOther => ?_⟩⟩
      · rw [record] at length
        exact length
      · rw [record]
        exact issued.readOff
      · have ownsOther : state.held holder = some other.extent := by simp [State.held, holdsOther]
        exact sound.accounts.once _ _ _ _ unit ownsOther owns insideOther inside
    · cases checked
  · intro slot stores next lease latest phase mapped isLatest less near
    have holds : state.holding (.hostValue slot) = some lease := by
      simp [State.holding, mapped, HostValue.lease]
    by_contra several
    simp only [Ordering, phase] at ordering
    cases mode : cfg.mode with
    | internal =>
      have own := coherent.internal mode slot lease holds
      obtain rfl := Option.some.inj (own.symm.trans isLatest)
      exact Nat.lt_irrefl _ less
    | external =>
      obtain ⟨other, newest, holdsOther, isNewest, same⟩ := ordering.1.others several mode
      obtain rfl := Option.some.inj (holds.symm.trans holdsOther)
      obtain rfl := Option.some.inj (isLatest.symm.trans isNewest)
      have issued := coherent.issued (.hostValue slot) lease holds
      obtain ⟨issuedLatest, -⟩ := coherent.published slot latest isLatest
      have equal := generationOf_inj issued.positive (Nat.le_of_lt less) near
        (by rw [← issued.generation, ← issuedLatest.generation, same])
      omega
  · intro holder lease holds
    have issued := coherent.issued holder lease holds
    rw [issued.generation]
    exact generationOf_ne_zero issued.positive

/-- A value written through, pushed and committed is served in place. -/
theorem serves_in_place_committed : ∃ trace state,
    Run (Takes (move fourUnits)) (start fourUnits) trace state ∧
      directPoolServe state 0 = some 4096 ∧ ServesInPlace fourUnits state := by
  have executed : Run.execute (move fourUnits) (start fourUnits)
      [.writeThrough 0 [7] true, .advance, .advance, .advance, .advance, .advance, .push, .complete,
        .commit ⟨0, 1, 1, [7], 1⟩] = some (_, _) := rfl
  have begin : Run (Takes (move fourUnits)) (start fourUnits) [] (start fourUnits) := .start
  have run := begin.execute executed
  exact ⟨_, _, run, rfl, serves_in_place run⟩

end KvCache.PoolMachine
