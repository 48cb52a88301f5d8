import KvCache.ChunkClient.Coalesced
import KvCache.Foundation.Run

/-!
# Round trip of coalesced chunks

The groups partition the layers. A GET is sized and cut by the row count of the first
chunk that the process put. A chunk with as many rows comes back as it was put. A chunk
with more rows makes the GET raise; one with fewer is written over the start of the
buffers and cut at the wrong stride.

The cap holds for a chunk with at most as many rows as the plan was made for. A longer one
can exceed it in a group of several layers.
-/

namespace KvCache.Coalesced

open EqualBlocks Run

universe u v
variable {Key : Type u} {Row : Type v} (cfg : Config)

/-! ## Values -/

/-- The value of a component of a group. -/
def Chunk.valueOf {numLayers : Nat} (chunk : Chunk Row numLayers) (component : Component)
    (layers : List Nat) : List Row :=
  match component with
  | .kv => (layers.map chunk.kList).flatten ++ (layers.map chunk.vList).flatten
  | .kg => (layers.map chunk.kList).flatten
  | .vg => (layers.map chunk.vList).flatten

/-- The components that the client stores. -/
def Config.Writes (component : Component) : Prop :=
  if cfg.kvMerge then component = .kv else component ≠ .kv

instance (component : Component) : Decidable (cfg.Writes component) := by
  unfold Config.Writes
  infer_instance

/-- The rows of the value of a component of a group of so many layers. -/
def Component.rows (component : Component) (layers blocks : Nat) : Nat :=
  match component with
  | .kv => layers * blocks + layers * blocks
  | _ => layers * blocks

variable {cfg}

theorem concat_eq_flatten (tensors : List (List Row)) : concat tensors = tensors.flatten := by
  unfold concat
  match tensors with
  | [] => rfl
  | [tensor] => simp
  | _ :: _ :: _ => simp

theorem map_copyToStage (source stage : Nat → List Row) (layers : List Nat) :
    layers.map (copyToStage source stage layers) = layers.map source :=
  List.map_congr_left fun layer member => by simp [copyToStage, member]

/-- Staged or not, the K rows of a group are those of its layers. -/
theorem concat_staged (staging : Bool) (source stage : Nat → List Row) (layers : List Nat) :
    concat (layers.map (if staging then
        (if staging then copyToStage source stage layers else stage) else source)) =
      (layers.map source).flatten := by
  rw [concat_eq_flatten]
  cases staging
  · rfl
  · simp [map_copyToStage]

theorem kRows_length (chunk : Chunk Row cfg.numLayers) {layers : List Nat}
    (inside : ∀ layer ∈ layers, layer < cfg.numLayers) :
    (layers.map chunk.kList).flatten.length = layers.length * chunk.blocks := by
  have equal : ∀ block ∈ layers.map chunk.kList, block.length = chunk.blocks := by
    intro block member
    obtain ⟨layer, present, rfl⟩ := List.mem_map.mp member
    exact chunk.kRows layer (inside layer present)
  rw [flatten_length equal, List.length_map]

theorem vRows_length (chunk : Chunk Row cfg.numLayers) {layers : List Nat}
    (inside : ∀ layer ∈ layers, layer < cfg.numLayers) :
    (layers.map chunk.vList).flatten.length = layers.length * chunk.blocks := by
  have equal : ∀ block ∈ layers.map chunk.vList, block.length = chunk.blocks := by
    intro block member
    obtain ⟨layer, present, rfl⟩ := List.mem_map.mp member
    exact chunk.vRows layer (inside layer present)
  rw [flatten_length equal, List.length_map]

theorem valueOf_length (chunk : Chunk Row cfg.numLayers) {layers : List Nat}
    (inside : ∀ layer ∈ layers, layer < cfg.numLayers) (component : Component) :
    (chunk.valueOf component layers).length = component.rows layers.length chunk.blocks := by
  cases component with
  | kv => rw [Chunk.valueOf, List.length_append, kRows_length chunk inside, vRows_length chunk inside]; rfl
  | kg => exact kRows_length chunk inside
  | vg => exact vRows_length chunk inside

/-! ## Store -/

section Store

variable [DecidableEq Key] (key : Key) (chunk : Chunk Row cfg.numLayers) (onDevice reuse : Bool)

/-- What storing a group does to the values and the shapes. -/
theorem putGroup_effect (gid : Nat) (layers : List Nat) (system : System Key Row cfg.numLayers)
    (inside : ∀ layer ∈ layers, layer < cfg.numLayers) :
    let after := cfg.putGroup key chunk onDevice reuse gid layers system
    (∀ other number component, after.wire (other, number, component) =
      if other = key ∧ number = gid ∧ cfg.Writes component then
        some (chunk.valueOf component layers)
      else system.wire (other, number, component)) ∧
    (∀ number, after.client.coalesceGroupShapes number =
      if number = gid then
        some ((system.client.coalesceGroupShapes gid).getD
          (layers.length * chunk.blocks, layers.length * chunk.blocks))
      else system.client.coalesceGroupShapes number) ∧
    after.client.coalesceGroups = system.client.coalesceGroups ∧
    after.lastPut = system.lastPut ∧ after.firstBlocks = system.firstBlocks := by
  have kLength := kRows_length chunk inside
  have vLength := vRows_length chunk inside
  refine ⟨fun other number component => ?_, fun number => ?_, ?_, ?_, ?_⟩
  · simp only [Config.putGroup, concat_staged]
    cases merged : cfg.kvMerge
    · cases component <;>
        simp [System.wirePut, Function.update_apply, Config.Writes, merged, Chunk.valueOf]
    · cases component <;>
        simp [System.wirePut, Function.update_apply, Config.Writes, merged, Chunk.valueOf]
  · simp only [Config.putGroup, concat_staged, kLength, vLength]
    cases cfg.kvMerge <;> simp [System.wirePut, Function.update_apply]
  · cases merged : cfg.kvMerge <;> simp [Config.putGroup, System.wirePut, merged]
  · cases merged : cfg.kvMerge <;> simp [Config.putGroup, System.wirePut, merged]
  · cases merged : cfg.kvMerge <;> simp [Config.putGroup, System.wirePut, merged]

/-- The group of a number where the first group has another number. -/
def groupAt (plan : List (List Nat)) (first number : Nat) : Option (List Nat) :=
  if first ≤ number then plan[number - first]? else none

theorem groupAt_cons (layers : List Nat) (rest : List (List Nat)) (first number : Nat) :
    groupAt (layers :: rest) first number =
      if number = first then some layers else groupAt rest (first + 1) number := by
  unfold groupAt
  by_cases here : number = first
  · simp [here]
  · by_cases later : first + 1 ≤ number
    · obtain ⟨distance, far⟩ := Nat.exists_eq_add_of_le later
      have shifted : number - first = distance + 1 := by omega
      have rest : number - (first + 1) = distance := by omega
      rw [if_neg here, if_pos (by omega), if_pos later, shifted, rest, List.getElem?_cons_succ]
    · rw [if_neg here, if_neg (by omega), if_neg later]

/-- What storing all groups does to the values and the shapes. -/
theorem putGroups_effect (first : Nat) (plan : List (List Nat))
    (system : System Key Row cfg.numLayers)
    (inside : ∀ layers ∈ plan, ∀ layer ∈ layers, layer < cfg.numLayers) :
    let after := cfg.putGroups key chunk onDevice reuse first plan system
    (∀ other number component, after.wire (other, number, component) =
      if other = key ∧ cfg.Writes component then
        ((groupAt plan first number).map (chunk.valueOf component)).or
          (system.wire (other, number, component))
      else system.wire (other, number, component)) ∧
    (∀ number, after.client.coalesceGroupShapes number =
      match groupAt plan first number with
      | some layers => some ((system.client.coalesceGroupShapes number).getD
          (layers.length * chunk.blocks, layers.length * chunk.blocks))
      | none => system.client.coalesceGroupShapes number) ∧
    after.client.coalesceGroups = system.client.coalesceGroups ∧
    after.lastPut = system.lastPut ∧ after.firstBlocks = system.firstBlocks := by
  induction plan generalizing first system with
  | nil => simp [Config.putGroups, groupAt]
  | cons layers rest inductionHypothesis =>
    obtain ⟨wireHere, shapesHere, groupsHere, lastHere, firstHere⟩ :=
      putGroup_effect key chunk onDevice reuse first layers system
        (inside layers List.mem_cons_self)
    obtain ⟨wireRest, shapesRest, groupsRest, lastRest, firstRest⟩ :=
      inductionHypothesis (first + 1)
        (cfg.putGroup key chunk onDevice reuse first layers system)
        fun other member => inside other (.tail _ member)
    have past : groupAt rest (first + 1) first = none := by
      rw [groupAt, if_neg (by omega)]
    refine ⟨fun other number component => ?_, fun number => ?_, groupsRest.trans groupsHere,
      lastRest.trans lastHere, firstRest.trans firstHere⟩
    · rw [Config.putGroups, wireRest, wireHere, groupAt_cons]
      by_cases here : number = first
      · subst here
        by_cases written : other = key ∧ cfg.Writes component
        · simp [written, past]
        · simp only [if_neg written]
          rw [if_neg fun both => written ⟨both.1, both.2.2⟩]
      · simp only [here, false_and, and_false, if_false]
    · rw [Config.putGroups, shapesRest, groupAt_cons, shapesHere]
      by_cases here : number = first
      · subst here
        simp [past]
      · simp only [here, if_false]

end Store

/-! ## Fetch -/

theorem outBuffer_length (reuse : Bool) (pooled : Option (List Row)) (rows : Nat)
    (garbage : Nat → Row) : (outBuffer reuse pooled rows garbage).1.length = rows := by
  unfold outBuffer uninitialised
  cases pooled with
  | none => simp
  | some buffer =>
    dsimp only
    split
    · rename_i kept
      exact kept.2
    · simp

theorem wireGet_found {value : Option (List Row)} {buffer after : List Row}
    (hit : wireGet value buffer = .found after) :
    ∃ stored, value = some stored ∧ stored.length ≤ buffer.length ∧
      after = overwrite stored buffer := by
  cases value with
  | none => cases hit
  | some stored =>
    unfold wireGet at hit
    dsimp only at hit
    split at hit
    · cases hit
      exact ⟨stored, rfl, ‹_›, rfl⟩
    · cases hit

theorem wireGet_stored (stored buffer : List Row) (fits : stored.length ≤ buffer.length) :
    wireGet (some stored) buffer = .found (overwrite stored buffer) := if_pos fits

/-- A fetch changes the buffers of the pool only. -/
def Client.SameShapes (client other : Client Row) : Prop :=
  other.coalesceGroups = client.coalesceGroups ∧
    other.coalesceGroupShapes = client.coalesceGroupShapes

section Fetch

variable (wire : WireKey Key → Option (List Row)) (key : Key) (garbage : Nat → Row)

variable (cfg) in
theorem getGroup_sameShapes (gid : Nat) (layers : List Nat) (client : Client Row) :
    client.SameShapes (cfg.getGroup wire key garbage gid layers client).1 := by
  unfold Config.getGroup
  split
  · exact ⟨rfl, rfl⟩
  · split
    · exact ⟨rfl, rfl⟩
    · unfold Config.getPair
      dsimp only
      split <;> exact ⟨rfl, rfl⟩

/-- The group that a fetch cuts out of the values it found. -/
def Config.cutGroup (cfg : Config) (layers : List Nat) (rows : Nat) (kOut vOut kvOut : List Row) :
    List (Restored Row) :=
  if cfg.kvMerge then splitMerged layers (rows / layers.length) rows kvOut
  else splitLayers layers (rows / layers.length) kOut vOut

/-- A group is found only if its values are there and fit buffers of the recorded shapes;
it is then cut out of these buffers with the values at their start. -/
theorem getGroup_found {gid : Nat} {layers : List Nat} {client after : Client Row} {rows : Nat}
    {entries : List (Restored Row)} (shape : client.coalesceGroupShapes gid = some (rows, rows))
    (found : cfg.getGroup wire key garbage gid layers client = (after, .found entries)) :
    ∃ buffers values : Component → List Row,
      (∀ component, (buffers component).length = component.rows 1 rows) ∧
      (∀ component, cfg.Writes component → wire (key, gid, component) = some (values component) ∧
        (values component).length ≤ (buffers component).length) ∧
      entries = cfg.cutGroup layers rows (overwrite (values .kg) (buffers .kg))
        (overwrite (values .vg) (buffers .vg)) (overwrite (values .kv) (buffers .kv)) := by
  simp only [Config.getGroup, shape] at found
  let buffers := fun component : Component => match component with
    | .kv => (outBuffer (cfg.reuse client) (client.poolGetKv gid) (rows + rows) garbage).1
    | .kg => (outBuffer (cfg.reusePair client gid rows rows) (client.poolGetKg gid) rows garbage).1
    | .vg => (outBuffer (cfg.reusePair client gid rows rows) (client.poolGetVg gid) rows garbage).1
  have sized : ∀ component, (buffers component).length = component.rows 1 rows := by
    intro component
    cases component <;> simp [buffers, Component.rows, outBuffer_length]
  split at found
  · rename_i merged
    have hit := congrArg Prod.snd found
    unfold Config.getMerged at hit
    dsimp only at hit
    split at hit
    · rename_i kvOut kvHit
      obtain ⟨value, present, fits, rfl⟩ := wireGet_found kvHit
      refine ⟨buffers, fun _ => value, sized, fun component written => ?_, ?_⟩
      · rw [Config.Writes, if_pos merged] at written
        subst written
        exact ⟨present, fits⟩
      · rw [Config.cutGroup, if_pos merged]
        exact (Fetch.found.inj hit).symm
    · cases hit
    · cases hit
  · rename_i apart
    unfold Config.getPair at found
    dsimp only at found
    split at found
    · cases found
    · cases found
    · rename_i kOut vOut hitK hitV
      obtain ⟨kValue, kPresent, kFits, rfl⟩ := wireGet_found hitK
      obtain ⟨vValue, vPresent, vFits, rfl⟩ := wireGet_found hitV
      refine ⟨buffers, fun component => if component = .kg then kValue else vValue, sized,
        fun component written => ?_, ?_⟩
      · rw [Config.Writes, if_neg apart] at written
        cases component with
        | kv => exact absurd rfl written
        | kg => exact ⟨kPresent, kFits⟩
        | vg => exact ⟨vPresent, vFits⟩
      · rw [Config.cutGroup, if_neg apart]
        exact (Fetch.found.inj (Prod.mk.inj found).2).symm
    · cases found

variable (cfg) in
/-- A group whose values are there and fit is found. -/
theorem getGroup_stored (gid : Nat) (layers : List Nat) (values : Component → List Row)
    {client : Client Row} {rows : Nat}
    (shape : client.coalesceGroupShapes gid = some (rows, rows))
    (stored : ∀ component, cfg.Writes component →
      wire (key, gid, component) = some (values component) ∧
        (values component).length ≤ component.rows 1 rows) :
    ∃ entries, (cfg.getGroup wire key garbage gid layers client).2 = .found entries := by
  simp only [Config.getGroup, shape]
  split
  · rename_i merged
    obtain ⟨present, fits⟩ := stored .kv (by rw [Config.Writes, if_pos merged])
    have hit := wireGet_stored (values .kv)
      (outBuffer (cfg.reuse client) (client.poolGetKv gid) (rows + rows) garbage).1
      (by simpa [outBuffer_length, Component.rows] using fits)
    rw [← present] at hit
    simp only [Config.getMerged, hit]
    exact ⟨_, rfl⟩
  · rename_i apart
    obtain ⟨kPresent, kFits⟩ := stored .kg (by rw [Config.Writes, if_neg apart]; decide)
    obtain ⟨vPresent, vFits⟩ := stored .vg (by rw [Config.Writes, if_neg apart]; decide)
    have kHit := wireGet_stored (values .kg)
      (outBuffer (cfg.reusePair client gid rows rows) (client.poolGetKg gid) rows garbage).1
      (by simpa [outBuffer_length, Component.rows] using kFits)
    have vHit := wireGet_stored (values .vg)
      (outBuffer (cfg.reusePair client gid rows rows) (client.poolGetVg gid) rows garbage).1
      (by simpa [outBuffer_length, Component.rows] using vFits)
    rw [← kPresent] at kHit
    rw [← vPresent] at vHit
    simp only [Config.getPair, kHit, vHit]
    exact ⟨_, rfl⟩

/-- A fetch of several groups changes the buffers of the pool only. -/
theorem getGroups_sameShapes (first : Nat) (plan : List (List Nat)) (client : Client Row) :
    client.SameShapes (cfg.getGroups wire key garbage first plan client).1 := by
  induction plan generalizing first client with
  | nil => exact ⟨rfl, rfl⟩
  | cons layers rest inductionHypothesis =>
    have here := getGroup_sameShapes cfg wire key garbage first layers client
    unfold Config.getGroups
    split
    · rename_i after front found
      rw [found] at here
      have later := inductionHypothesis (first + 1) after
      split
      · rename_i last back ended
        rw [ended] at later
        exact ⟨later.1.trans here.1, later.2.trans here.2⟩
      · exact ⟨later.1.trans here.1, later.2.trans here.2⟩
    · exact here

end Fetch

/-! ## Cutting -/

/-- The entry of a layer in a restored chunk. -/
def Chunk.entry {numLayers : Nat} (chunk : Chunk Row numLayers) (layer : Nat) : Restored Row :=
  (layer, chunk.kList layer, chunk.vList layer)

theorem rows_one (component : Component) (layers blocks : Nat) :
    component.rows 1 (layers * blocks) = component.rows layers blocks := by
  cases component <;> simp [Component.rows]

/-- Mapping over a numbered list without using the numbers. -/
theorem zipIdx_map_eq {α β : Type _} (layers : List α) (numbered : α × Nat → β) (plain : α → β)
    (same : ∀ layer j, layers[j]? = some layer → numbered (layer, j) = plain layer) :
    layers.zipIdx.map numbered = layers.map plain := by
  have renamed : layers.zipIdx.map numbered = layers.zipIdx.map (plain ∘ Prod.fst) := by
    apply List.map_congr_left
    rintro ⟨layer, j⟩ member
    exact same layer j (List.mk_mem_zipIdx_iff_getElem?.mp member)
  rw [renamed, ← List.map_map, List.zipIdx_map_fst]

variable {chunk : Chunk Row cfg.numLayers} {layers : List Nat}

/-- The values of a group cut by the row count of their chunk are its layers. -/
theorem cutGroup_exact (inside : ∀ layer ∈ layers, layer < cfg.numLayers)
    (nonempty : 0 < layers.length) :
    cfg.cutGroup layers (layers.length * chunk.blocks) (chunk.valueOf .kg layers)
      (chunk.valueOf .vg layers) (chunk.valueOf .kv layers) = layers.map chunk.entry := by
  have stride : layers.length * chunk.blocks / layers.length = chunk.blocks :=
    Nat.mul_div_cancel_left _ nonempty
  have kEqual : ∀ block ∈ layers.map chunk.kList, block.length = chunk.blocks := by
    intro block member
    obtain ⟨layer, present, rfl⟩ := List.mem_map.mp member
    exact chunk.kRows layer (inside layer present)
  have vEqual : ∀ block ∈ layers.map chunk.vList, block.length = chunk.blocks := by
    intro block member
    obtain ⟨layer, present, rfl⟩ := List.mem_map.mp member
    exact chunk.vRows layer (inside layer present)
  have kSlice : ∀ layer j, layers[j]? = some layer →
      slice (chunk.valueOf .kg layers) (j * chunk.blocks) (j * chunk.blocks + chunk.blocks) =
        chunk.kList layer := by
    intro layer j numbered
    exact slice_flatten kEqual (by simp [numbered])
  have vSlice : ∀ layer j, layers[j]? = some layer →
      slice (chunk.valueOf .vg layers) (j * chunk.blocks) (j * chunk.blocks + chunk.blocks) =
        chunk.vList layer := by
    intro layer j numbered
    exact slice_flatten vEqual (by simp [numbered])
  have kLength : (chunk.valueOf .kg layers).length = layers.length * chunk.blocks :=
    kRows_length chunk inside
  unfold Config.cutGroup
  split
  · unfold splitMerged
    rw [stride]
    refine zipIdx_map_eq _ _ _ fun layer j numbered => ?_
    have early : j * chunk.blocks + chunk.blocks ≤ (chunk.valueOf .kg layers).length := by
      have bounded : j < layers.length := (List.getElem?_eq_some_iff.mp numbered).1
      have scaled : (j + 1) * chunk.blocks ≤ layers.length * chunk.blocks :=
        Nat.mul_le_mul_right _ bounded
      rw [kLength]
      rwa [Nat.succ_mul] at scaled
    have merged : chunk.valueOf .kv layers = chunk.valueOf .kg layers ++ chunk.valueOf .vg layers :=
      rfl
    dsimp only
    rw [merged, slice_append_left _ _ _ early, ← kLength, Nat.add_assoc, slice_append_right,
      kSlice layer j numbered, vSlice layer j numbered]
    rfl
  · unfold splitLayers
    rw [stride]
    refine zipIdx_map_eq _ _ _ fun layer j numbered => ?_
    dsimp only
    rw [kSlice layer j numbered, vSlice layer j numbered]
    rfl

variable (cfg) in
/-- A group is cut into as many rows for each layer as its buffers have for each. -/
theorem cutGroup_width {blocks : Nat} (kOut vOut kvOut : List Row) (nonempty : 0 < layers.length)
    (kSized : kOut.length = layers.length * blocks)
    (kvSized : kvOut.length = layers.length * blocks + layers.length * blocks)
    (entry : Restored Row)
    (member : entry ∈ cfg.cutGroup layers (layers.length * blocks) kOut vOut kvOut) :
    entry.2.1.length = blocks := by
  have stride : layers.length * blocks / layers.length = blocks :=
    Nat.mul_div_cancel_left _ nonempty
  have early : ∀ j < layers.length, j * blocks + blocks ≤ layers.length * blocks := by
    intro j bounded
    have scaled : (j + 1) * blocks ≤ layers.length * blocks := Nat.mul_le_mul_right _ bounded
    rwa [Nat.succ_mul] at scaled
  unfold Config.cutGroup at member
  split at member
  · unfold splitMerged at member
    obtain ⟨⟨layer, j⟩, numbered, rfl⟩ := List.mem_map.mp member
    have bounded := early j
      (List.getElem?_eq_some_iff.mp (List.mk_mem_zipIdx_iff_getElem?.mp numbered)).1
    dsimp only
    rw [stride, slice_length _ (by omega)]
    omega
  · unfold splitLayers at member
    obtain ⟨⟨layer, j⟩, numbered, rfl⟩ := List.mem_map.mp member
    have bounded := early j
      (List.getElem?_eq_some_iff.mp (List.mk_mem_zipIdx_iff_getElem?.mp numbered)).1
    dsimp only
    rw [stride, slice_length _ (by omega)]
    omega

/-! ## Whole chunks -/

section Whole

variable {wire : WireKey Key → Option (List Row)} {key : Key} (garbage : Nat → Row)

/-- The recorded shapes of the groups are those of chunks with so many rows. -/
def Client.Shaped (client : Client Row) (plan : List (List Nat)) (first blocks : Nat) : Prop :=
  ∀ number layers, groupAt plan first number = some layers →
    client.coalesceGroupShapes number = some (layers.length * blocks, layers.length * blocks)

/-- The groups are not empty and their layers exist. -/
def Config.Planned (cfg : Config) (plan : List (List Nat)) : Prop :=
  ∀ layers ∈ plan, 0 < layers.length ∧ ∀ layer ∈ layers, layer < cfg.numLayers

theorem Client.Shaped.tail {client after : Client Row} {layers : List Nat}
    {rest : List (List Nat)} {first blocks : Nat}
    (shaped : client.Shaped (layers :: rest) first blocks) (same : client.SameShapes after) :
    after.Shaped rest (first + 1) blocks := by
  intro number group at_number
  rw [same.2]
  apply shaped number group
  rw [groupAt_cons, if_neg, at_number]
  intro here
  rw [groupAt, if_neg (by omega)] at at_number
  cases at_number

/-- A chunk whose values have at least as many rows as the shapes is found only with as
many, and then as it was put. -/
theorem getGroups_exact {first blocks : Nat} {plan : List (List Nat)} {client after : Client Row}
    {last : Option (Chunk Row cfg.numLayers)} {entries : List (Restored Row)}
    (planned : cfg.Planned plan) (shaped : client.Shaped plan first blocks)
    (stored : ∀ number layers component value, groupAt plan first number = some layers →
      wire (key, number, component) = some value →
      ∃ chunk, last = some chunk ∧ blocks ≤ chunk.blocks ∧ value = chunk.valueOf component layers)
    (found : cfg.getGroups wire key garbage first plan client = (after, .found entries)) :
    (plan = [] ∧ entries = []) ∨
      ∃ chunk, last = some chunk ∧ entries = plan.flatten.map chunk.entry := by
  induction plan generalizing first client after entries with
  | nil =>
    cases found
    exact .inl ⟨rfl, rfl⟩
  | cons layers rest inductionHypothesis =>
    right
    have same := getGroup_sameShapes cfg wire key garbage first layers client
    have here : groupAt (layers :: rest) first first = some layers := by
      rw [groupAt_cons, if_pos rfl]
    obtain ⟨nonempty, inside⟩ := planned layers List.mem_cons_self
    unfold Config.getGroups at found
    split at found
    · rename_i middle front frontFound
      obtain ⟨buffers, values, sized, present, cut⟩ := getGroup_found wire key garbage
        (shaped first layers here) frontFound
      -- every stored component is that of the chunk put last, cut at its own stride
      have known : ∀ component, cfg.Writes component → ∃ chunk, last = some chunk ∧
          chunk.blocks = blocks ∧
          overwrite (values component) (buffers component) = chunk.valueOf component layers := by
        intro component written
        obtain ⟨there, fits⟩ := present component written
        obtain ⟨chunk, put, wide, value⟩ := stored first layers component _ here there
        have length := valueOf_length chunk inside component
        rw [value, sized, rows_one, length] at fits
        have same : chunk.blocks = blocks := by
          have scaled : layers.length * chunk.blocks ≤ layers.length * blocks := by
            cases component <;> simp only [Component.rows] at fits <;> omega
          exact Nat.le_antisymm (Nat.le_of_mul_le_mul_left scaled nonempty) wide
        refine ⟨chunk, put, same, ?_⟩
        rw [value, overwrite_whole]
        rw [sized, rows_one, length, same]
      have frontExact : ∃ chunk, last = some chunk ∧ front = layers.map chunk.entry := by
        cases merged : cfg.kvMerge with
        | true =>
          obtain ⟨chunk, put, same, whole⟩ := known .kv (by simp [Config.Writes, merged])
          refine ⟨chunk, put, ?_⟩
          rw [cut, ← cutGroup_exact inside nonempty, same, Config.cutGroup, Config.cutGroup,
            if_pos merged, if_pos merged, whole]
        | false =>
          obtain ⟨chunk, put, same, kWhole⟩ := known .kg (by simp [Config.Writes, merged])
          obtain ⟨other, otherPut, -, vWhole⟩ := known .vg (by simp [Config.Writes, merged])
          cases Option.some.inj (put.symm.trans otherPut)
          refine ⟨chunk, put, ?_⟩
          have apart : ¬ cfg.kvMerge = true := by simp [merged]
          rw [cut, ← cutGroup_exact inside nonempty, same, Config.cutGroup, Config.cutGroup,
            if_neg apart, if_neg apart, kWhole, vWhole]
      obtain ⟨chunk, put, frontEq⟩ := frontExact
      rw [frontFound] at same
      split at found
      · rename_i final back backFound
        have later := inductionHypothesis (fun group member => planned group (.tail _ member))
          (shaped.tail same)
          (fun number group component value at_number there => by
            apply stored number group component value _ there
            rw [groupAt_cons, if_neg, at_number]
            intro here
            rw [groupAt, if_neg (by omega)] at at_number
            cases at_number) backFound
        refine ⟨chunk, put, ?_⟩
        have whole : front ++ back = entries := Fetch.found.inj (Prod.mk.inj found).2
        rw [← whole, frontEq, List.flatten_cons, List.map_append]
        rcases later with ⟨rfl, rfl⟩ | ⟨other, otherPut, backEq⟩
        · rfl
        · cases Option.some.inj (put.symm.trans otherPut)
          rw [backEq]
      · rename_i ended
        exact absurd found (ended _ _)
    · rename_i ended
      exact absurd found (ended _ _)

/-- A chunk all of whose values are there, with at most as many rows as the shapes, is
found, each layer with the rows of the shapes. -/
theorem getGroups_stored {first blocks : Nat} {plan : List (List Nat)} {client : Client Row}
    {chunk : Chunk Row cfg.numLayers} (planned : cfg.Planned plan)
    (shaped : client.Shaped plan first blocks) (short : chunk.blocks ≤ blocks)
    (stored : ∀ number layers component, groupAt plan first number = some layers →
      cfg.Writes component →
      wire (key, number, component) = some (chunk.valueOf component layers)) :
    ∃ entries, (cfg.getGroups wire key garbage first plan client).2 = .found entries ∧
      ∀ entry ∈ entries, entry.2.1.length = blocks := by
  induction plan generalizing first client with
  | nil => exact ⟨[], rfl, by simp⟩
  | cons layers rest inductionHypothesis =>
    have same := getGroup_sameShapes cfg wire key garbage first layers client
    have here : groupAt (layers :: rest) first first = some layers := by
      rw [groupAt_cons, if_pos rfl]
    obtain ⟨nonempty, inside⟩ := planned layers List.mem_cons_self
    have fits : ∀ component, (chunk.valueOf component layers).length ≤
        component.rows 1 (layers.length * blocks) := by
      intro component
      have scaled : layers.length * chunk.blocks ≤ layers.length * blocks :=
        Nat.mul_le_mul_left _ short
      rw [valueOf_length chunk inside, rows_one]
      cases component <;> simp only [Component.rows] <;> omega
    obtain ⟨front, frontFound⟩ := getGroup_stored cfg wire key garbage first layers
      (fun component => chunk.valueOf component layers) (shaped first layers here)
      fun component written => ⟨stored first layers component here written, fits component⟩
    have paired : cfg.getGroup wire key garbage first layers client =
        ((cfg.getGroup wire key garbage first layers client).1, .found front) :=
      Prod.ext rfl frontFound
    obtain ⟨buffers, values, sized, present, cut⟩ := getGroup_found wire key garbage
      (shaped first layers here) paired
    have width : ∀ entry ∈ front, entry.2.1.length = blocks := by
      intro entry member
      rw [cut] at member
      cases merged : cfg.kvMerge with
      | true =>
        have kvLength : (overwrite (values .kv) (buffers .kv)).length =
            layers.length * blocks + layers.length * blocks := by
          rw [overwrite_length (present .kv (by simp [Config.Writes, merged])).2, sized, rows_one]
          rfl
        have kLength : (uninitialised garbage (layers.length * blocks)).length =
            layers.length * blocks := by
          simp [uninitialised]
        apply cutGroup_width cfg _ (overwrite (values .vg) (buffers .vg)) _ nonempty kLength
          kvLength entry
        rwa [Config.cutGroup, if_pos merged] at member ⊢
      | false =>
        have kLength : (overwrite (values .kg) (buffers .kg)).length = layers.length * blocks := by
          rw [overwrite_length (present .kg (by simp [Config.Writes, merged])).2, sized, rows_one]
          rfl
        have apart : ¬ cfg.kvMerge = true := by simp [merged]
        have kvLength : (uninitialised garbage
            (layers.length * blocks + layers.length * blocks)).length =
              layers.length * blocks + layers.length * blocks := by
          simp [uninitialised]
        apply cutGroup_width cfg _ (overwrite (values .vg) (buffers .vg)) _ nonempty kLength
          kvLength entry
        rwa [Config.cutGroup, if_neg apart] at member ⊢
    obtain ⟨back, backFound, backWidth⟩ := inductionHypothesis
      (fun group member => planned group (.tail _ member)) (shaped.tail same)
      (fun number group component at_number written => by
        apply stored number group component _ written
        rw [groupAt_cons, if_neg, at_number]
        intro here
        rw [groupAt, if_neg (by omega)] at at_number
        cases at_number)
    refine ⟨front ++ back, ?_, fun entry member => ?_⟩
    · rw [Config.getGroups, paired]
      dsimp only
      split
      · rename_i last other ended
        rw [ended] at backFound
        rw [Fetch.found.inj backFound]
      · rename_i ended
        exact (ended _ back (Prod.ext rfl backFound)).elim
    · rcases List.mem_append.mp member with early | late
      · exact width entry early
      · exact backWidth entry late

end Whole

/-! ## Runs -/

section Runs

variable (cfg) in
/-- The plan partitions the layers. -/
def Config.Partitioned (system : System Key Row cfg.numLayers) : Prop :=
  ∀ plan, system.client.coalesceGroups = some plan →
    plan.flatten = List.range cfg.numLayers ∧ ∀ layers ∈ plan, 0 < layers.length

variable (cfg) in
/-- A stored value is at most the cap unless its group has one layer. -/
def Config.Capped (system : System Key Row cfg.numLayers) : Prop :=
  ∀ key gid component value, system.wire (key, gid, component) = some value →
    value.length * cfg.rowBytes ≤ cfg.coalesceCapBytes ∨
      ∃ plan layer, system.client.coalesceGroups = some plan ∧ plan[gid]? = some [layer]

variable (cfg) in
/-- A GET that returns a chunk returns the rows last put under the key. -/
def Config.RoundTrips (system : System Key Row cfg.numLayers) : Prop :=
  ∀ key garbage client entries,
    cfg.getChunkCoalesced system key garbage = (client, .found entries) →
    0 < cfg.numLayers → ∃ chunk, system.lastPut key = some chunk ∧
      entries = (List.range cfg.numLayers).map chunk.entry

variable (cfg) in
/-- What is claimed of a state. -/
structure Config.Sound (system : System Key Row cfg.numLayers) : Prop where
  partitioned : cfg.Partitioned system
  capped : cfg.Capped system
  roundTrips : cfg.RoundTrips system

variable (cfg) in
/-- The bytes of a value of a group whose layers have so many rows. -/
def Config.valueBytes (layers blocks : Nat) : Nat :=
  (if cfg.kvMerge then 2 else 1) * (layers * blocks) * cfg.rowBytes

variable (cfg) in
/-- A chunk has at least as many rows as the first chunk put, and its values fit the cap in
the groups of several layers. -/
def Config.Fits (system : System Key Row cfg.numLayers) (chunk : Chunk Row cfg.numLayers) : Prop :=
  (∀ first, system.firstBlocks = some first → first ≤ chunk.blocks) ∧
    ∀ layers ∈ cfg.plan system.client chunk.blocks, layers.length = 1 ∨
      cfg.valueBytes layers.length chunk.blocks ≤ cfg.coalesceCapBytes

variable (cfg) in
/-- The condition on a call: every chunk put fits. -/
def Config.Meets (system : System Key Row cfg.numLayers) : Call Key Row cfg.numLayers → Prop
  | .put _ chunk _ => cfg.numLayers = 0 ∨ cfg.Fits system chunk
  | _ => True

variable (cfg) in
/-- The invariant: the plan is a partition, the shapes are those of the first chunk, and
every value is that of the chunk last put under its key, which has at least as many rows. -/
structure Config.Consistent (system : System Key Row cfg.numLayers) : Prop where
  planned : ∀ plan, system.client.coalesceGroups = some plan →
    plan.flatten = List.range cfg.numLayers ∧ cfg.Planned plan
  unshaped : system.firstBlocks = none → ∀ gid, system.client.coalesceGroupShapes gid = none
  shaped : ∀ first, system.firstBlocks = some first →
    ∃ plan, system.client.coalesceGroups = some plan ∧ system.client.Shaped plan 0 first
  stored : ∀ key gid component value, system.wire (key, gid, component) = some value →
    ∃ chunk first plan layers, system.lastPut key = some chunk ∧
      system.firstBlocks = some first ∧ first ≤ chunk.blocks ∧
      system.client.coalesceGroups = some plan ∧ plan[gid]? = some layers ∧
      cfg.Writes component ∧ value = chunk.valueOf component layers
  capped : cfg.Capped system

theorem buildGroupPlan_planned (perLayerBytes : Nat) :
    (cfg.buildGroupPlan perLayerBytes).flatten = List.range cfg.numLayers ∧
      cfg.Planned (cfg.buildGroupPlan perLayerBytes) := by
  have positive : 0 < max 1 (cfg.coalesceCapBytes /
      max 1 (perLayerBytes * if cfg.kvMerge then 2 else 1)) := by omega
  have whole : (cfg.buildGroupPlan perLayerBytes).flatten = List.range cfg.numLayers :=
    groups_flatten positive cfg.numLayers
  refine ⟨whole, fun layers member => ⟨(groups_bounded positive _ layers member).1, ?_⟩⟩
  intro layer inside
  have listed : layer ∈ (cfg.buildGroupPlan perLayerBytes).flatten :=
    List.mem_flatten.mpr ⟨layers, member, inside⟩
  rw [whole] at listed
  exact List.mem_range.mp listed

theorem plan_planned {client : Client Row}
    (known : ∀ plan, client.coalesceGroups = some plan →
      plan.flatten = List.range cfg.numLayers ∧ cfg.Planned plan) (blocks : Nat) :
    (cfg.plan client blocks).flatten = List.range cfg.numLayers ∧
      cfg.Planned (cfg.plan client blocks) := by
  unfold Config.plan
  cases present : client.coalesceGroups with
  | some plan => exact known plan present
  | none => exact buildGroupPlan_planned _

theorem plan_known {client : Client Row} {plan : List (List Nat)}
    (present : client.coalesceGroups = some plan) (blocks : Nat) :
    cfg.plan client blocks = plan := by
  rw [Config.plan, present, Option.getD_some]

/-- The bytes of a value are those of its component. -/
theorem valueBytes_eq {component : Component} (written : cfg.Writes component)
    (layers blocks : Nat) :
    component.rows layers blocks * cfg.rowBytes = cfg.valueBytes layers blocks := by
  unfold Config.Writes at written
  unfold Config.valueBytes
  split at written
  · rename_i merged
    subst written
    rw [if_pos merged, Nat.two_mul]
    rfl
  · rename_i apart
    rw [if_neg apart, Nat.one_mul]
    cases component with
    | kv => exact absurd rfl written
    | kg => rfl
    | vg => rfl

theorem groupAt_zero (plan : List (List Nat)) (number : Nat) :
    groupAt plan 0 number = plan[number]? := by
  simp [groupAt]

/-- A GET in a consistent state returns the chunk last put. -/
theorem Config.Consistent.roundTrips {system : System Key Row cfg.numLayers}
    (consistent : cfg.Consistent system) : cfg.RoundTrips system := by
  intro key garbage client entries found positive
  unfold Config.getChunkCoalesced at found
  cases present : system.client.coalesceGroups with
  | none =>
    rw [present] at found
    cases found
  | some plan =>
    rw [present] at found
    obtain ⟨whole, planned⟩ := consistent.planned plan present
    have nonempty : plan ≠ [] := by
      rintro rfl
      have width := congrArg List.length whole
      simp at width
      omega
    cases put : system.firstBlocks with
    | none =>
      obtain ⟨layers, rest, rfl⟩ := List.exists_cons_of_ne_nil nonempty
      have unknown := consistent.unshaped put 0
      simp only [Config.getGroups, Config.getGroup, unknown] at found
      cases found
    | some first =>
      obtain ⟨other, same, shaped⟩ := consistent.shaped first put
      cases Option.some.inj (present.symm.trans same)
      have stored : ∀ number layers component value, groupAt plan 0 number = some layers →
          system.wire (key, number, component) = some value →
          ∃ chunk, system.lastPut key = some chunk ∧ first ≤ chunk.blocks ∧
            value = chunk.valueOf component layers := by
        intro number layers component value numbered there
        obtain ⟨chunk, again, plan', layers', last, putAgain, wide, same', numbered', -, equal⟩ :=
          consistent.stored key number component value there
        cases Option.some.inj (put.symm.trans putAgain)
        cases Option.some.inj (present.symm.trans same')
        rw [groupAt_zero] at numbered
        cases Option.some.inj (numbered.symm.trans numbered')
        exact ⟨chunk, last, wide, equal⟩
      rcases getGroups_exact garbage planned shaped stored found with
        ⟨empty, -⟩ | ⟨chunk, last, exact⟩
      · exact absurd empty nonempty
      · exact ⟨chunk, last, by rw [exact, whole]⟩

theorem Config.Consistent.sound {system : System Key Row cfg.numLayers}
    (consistent : cfg.Consistent system) : cfg.Sound system where
  partitioned := fun plan present =>
    ⟨(consistent.planned plan present).1,
      fun layers member => ((consistent.planned plan present).2 layers member).1⟩
  capped := consistent.capped
  roundTrips := consistent.roundTrips

/-- Open gives a consistent state. -/
theorem openSystem_consistent (garbage : Nat → Row) :
    cfg.Consistent (cfg.openSystem garbage : System Key Row cfg.numLayers) := by
  refine ⟨?_, fun _ gid => ?_, fun first put => ?_, fun key gid component value there => ?_,
    fun key gid component value there => ?_⟩
  · intro plan present
    simp only [Config.openSystem, Config.initPlanAndPool] at present
    split at present
    · cases present
    · cases Option.some.inj present
      exact buildGroupPlan_planned _
  · simp only [Config.openSystem, Config.initPlanAndPool]
    split <;> rfl
  · cases put
  · cases there
  · cases there

section Put

variable [DecidableEq Key] (key : Key) (chunk : Chunk Row cfg.numLayers) (onDevice : Bool)
  (system : System Key Row cfg.numLayers)

/-- What storing a chunk does to the values, the shapes and the plan. -/
theorem putChunkCoalesced_effect (some_layer : cfg.numLayers ≠ 0)
    (planned : cfg.Planned (cfg.plan system.client chunk.blocks)) :
    let after := cfg.putChunkCoalesced key chunk onDevice system
    let plan := cfg.plan system.client chunk.blocks
    (∀ other number component, after.wire (other, number, component) =
      if other = key ∧ cfg.Writes component then
        (plan[number]?.map (chunk.valueOf component)).or (system.wire (other, number, component))
      else system.wire (other, number, component)) ∧
    (∀ number layers, plan[number]? = some layers →
      after.client.coalesceGroupShapes number =
        some ((system.client.coalesceGroupShapes number).getD
          (layers.length * chunk.blocks, layers.length * chunk.blocks))) ∧
    after.client.coalesceGroups = some plan ∧
    after.lastPut = Function.update system.lastPut key (some chunk) ∧
    after.firstBlocks = some (system.firstBlocks.getD chunk.blocks) := by
  have validated : ∀ client : Client Row, client.SameShapes (cfg.validatePool client chunk.blocks) := by
    intro client
    unfold Config.validatePool
    split <;> exact ⟨rfl, rfl⟩
  let plan := cfg.plan system.client chunk.blocks
  let client := cfg.validatePool { system.client with coalesceGroups := some plan } chunk.blocks
  obtain ⟨groupsSame, shapesSame⟩ :=
    validated { system.client with coalesceGroups := some plan }
  let reuse := !onDevice && cfg.bufReuse && client.poolAllocated && client.poolShapeOk &&
    decide (cfg.poolBlocks = some chunk.blocks)
  obtain ⟨wire, shapes, groups, last, first⟩ := putGroups_effect key chunk onDevice reuse 0 plan
    { system with
      client := client
      lastPut := Function.update system.lastPut key (some chunk)
      firstBlocks := some (system.firstBlocks.getD chunk.blocks) }
    fun layers member => (planned layers member).2
  have unfolded : cfg.putChunkCoalesced key chunk onDevice system =
      cfg.putGroups key chunk onDevice reuse 0 plan
        { system with
          client := client
          lastPut := Function.update system.lastPut key (some chunk)
          firstBlocks := some (system.firstBlocks.getD chunk.blocks) } := if_neg some_layer
  dsimp only
  rw [unfolded]
  refine ⟨fun other number component => ?_, fun number layers numbered => ?_,
    groups.trans groupsSame, last, first⟩
  · rw [wire, groupAt_zero]
  · rw [shapes, groupAt_zero, numbered]
    dsimp only
    rw [shapesSame]

/-- A chunk that fits keeps the state consistent. -/
theorem Config.Consistent.put {system : System Key Row cfg.numLayers}
    (consistent : cfg.Consistent system) (meets : cfg.numLayers = 0 ∨ cfg.Fits system chunk) :
    cfg.Consistent (cfg.putChunkCoalesced key chunk onDevice system) := by
  by_cases empty : cfg.numLayers = 0
  · rwa [Config.putChunkCoalesced, if_pos empty]
  · obtain ⟨wide, fits⟩ := meets.resolve_left empty
    obtain ⟨whole, planned⟩ := plan_planned consistent.planned chunk.blocks
    obtain ⟨wire, shapes, groups, last, first⟩ :=
      putChunkCoalesced_effect key chunk onDevice system empty planned
    refine ⟨fun plan present => ?_, fun none => ?_, fun recorded put => ?_,
      fun other gid component value there => ?_, fun other gid component value there => ?_⟩
    · cases Option.some.inj (groups.symm.trans present)
      exact ⟨whole, planned⟩
    · rw [first] at none
      cases none
    · rw [first] at put
      cases put
      refine ⟨_, groups, fun number layers numbered => ?_⟩
      rw [groupAt_zero] at numbered
      rw [shapes number layers numbered]
      cases earlier : system.firstBlocks with
      | none => rw [consistent.unshaped earlier, Option.getD_none, Option.getD_none]
      | some recorded =>
        obtain ⟨plan, present, shaped⟩ := consistent.shaped recorded earlier
        rw [plan_known present] at numbered
        rw [shaped number layers (by rwa [groupAt_zero]), Option.getD_some, Option.getD_some]
    · rw [wire] at there
      have least : system.firstBlocks.getD chunk.blocks ≤ chunk.blocks := by
        cases earlier : system.firstBlocks with
        | none => exact Nat.le_refl _
        | some recorded => exact wide recorded earlier
      by_cases written : other = key ∧ cfg.Writes component
      · rw [if_pos written] at there
        obtain ⟨rfl, writes⟩ := written
        cases numbered : (cfg.plan system.client chunk.blocks)[gid]? with
        | some layers =>
          rw [numbered, Option.map_some, Option.some_or] at there
          refine ⟨chunk, _, _, layers, ?_, first, least, groups, numbered, writes,
            (Option.some.inj there).symm⟩
          rw [last, Function.update_self]
        | none =>
          rw [numbered, Option.map_none, Option.none_or] at there
          obtain ⟨_, _, plan, layers, -, -, -, present, known, -⟩ :=
            consistent.stored other gid component value there
          rw [plan_known present, known] at numbered
          cases numbered
      · rw [if_neg written] at there
        obtain ⟨older, recorded, plan, layers, lastOther, earlier, wider, present, known, writes,
          equal⟩ := consistent.stored other gid component value there
        have apart : other ≠ key := fun same => written ⟨same, writes⟩
        refine ⟨older, recorded, plan, layers, ?_, ?_, wider, ?_, known, writes, equal⟩
        · rw [last, Function.update_of_ne apart, lastOther]
        · rw [first, earlier, Option.getD_some]
        · rw [groups, plan_known present]
    · have kept : system.wire (other, gid, component) = some value →
          value.length * cfg.rowBytes ≤ cfg.coalesceCapBytes ∨ ∃ plan layer,
            (cfg.putChunkCoalesced key chunk onDevice system).client.coalesceGroups = some plan ∧
              plan[gid]? = some [layer] := by
        intro older
        rcases consistent.capped other gid component value older with small | ⟨plan, layer, present,
          alone⟩
        · exact .inl small
        · exact .inr ⟨plan, layer, by rw [groups, plan_known present], alone⟩
      rw [wire] at there
      by_cases written : other = key ∧ cfg.Writes component
      · rw [if_pos written] at there
        cases numbered : (cfg.plan system.client chunk.blocks)[gid]? with
        | none =>
          rw [numbered, Option.map_none, Option.none_or] at there
          exact kept there
        | some layers =>
          rw [numbered, Option.map_some, Option.some_or] at there
          have member := List.mem_of_getElem? numbered
          rcases fits layers member with alone | small
          · obtain ⟨layer, rfl⟩ := List.length_eq_one_iff.mp alone
            exact .inr ⟨_, layer, groups, numbered⟩
          · left
            rw [← Option.some.inj there, valueOf_length chunk (planned layers member).2]
            rwa [← valueBytes_eq written.2] at small
      · rw [if_neg written] at there
        exact kept there

/-- A chunk that does not fit breaks what is claimed of the state. -/
theorem Config.Consistent.put_broken {system : System Key Row cfg.numLayers}
    (consistent : cfg.Consistent system) (some_layer : cfg.numLayers ≠ 0)
    (misfit : ¬ cfg.Fits system chunk) :
    ¬ cfg.Sound (cfg.putChunkCoalesced key chunk onDevice system) := by
  intro sound
  obtain ⟨whole, planned⟩ := plan_planned consistent.planned chunk.blocks
  obtain ⟨wire, shapes, groups, last, -⟩ :=
    putChunkCoalesced_effect key chunk onDevice system some_layer planned
  have stored : ∀ number layers component,
      (cfg.plan system.client chunk.blocks)[number]? = some layers → cfg.Writes component →
      (cfg.putChunkCoalesced key chunk onDevice system).wire (key, number, component) =
        some (chunk.valueOf component layers) := by
    intro number layers component numbered written
    rw [wire, if_pos ⟨rfl, written⟩, numbered, Option.map_some, Option.some_or]
  apply misfit
  constructor
  · intro first earlier
    by_contra narrow
    obtain ⟨plan, present, shaped⟩ := consistent.shaped first earlier
    have same : cfg.plan system.client chunk.blocks = plan := plan_known present _
    rw [same] at shapes groups stored planned
    have kept : (cfg.putChunkCoalesced key chunk onDevice system).client.Shaped plan 0 first := by
      intro number layers numbered
      have recorded := shaped number layers numbered
      rw [groupAt_zero] at numbered
      rw [shapes number layers numbered, recorded, Option.getD_some]
    have width : (chunk.kList 0).length = chunk.blocks := chunk.kRows 0 (by omega)
    have row : Row := (chunk.kList 0).get ⟨0, width ▸ chunk.positive⟩
    obtain ⟨entries, found, widths⟩ := getGroups_stored (fun _ => row) planned kept
      (Nat.le_of_not_le narrow) (fun number layers component numbered =>
        stored number layers component (by rwa [groupAt_zero] at numbered))
    have fetched : (cfg.getChunkCoalesced (cfg.putChunkCoalesced key chunk onDevice system) key
        (fun _ => row)).2 = .found entries := by
      rw [Config.getChunkCoalesced, groups]
      exact found
    obtain ⟨other, put, exact⟩ :=
      sound.roundTrips key _ _ entries (Prod.ext rfl fetched) (by omega)
    rw [last, Function.update_self] at put
    cases put
    have first_layer : chunk.entry 0 ∈ entries := by
      rw [exact]
      exact List.mem_map.mpr ⟨0, List.mem_range.mpr (by omega), rfl⟩
    have wrong := widths _ first_layer
    simp only [Chunk.entry, width] at wrong
    omega
  · intro layers member
    obtain ⟨gid, numbered⟩ := List.mem_iff_getElem?.mp member
    have component : ∃ component, cfg.Writes component := by
      cases merged : cfg.kvMerge with
      | true => exact ⟨.kv, by simp [Config.Writes, merged]⟩
      | false => exact ⟨.kg, by simp [Config.Writes, merged]⟩
    obtain ⟨component, written⟩ := component
    rcases sound.capped key gid component _ (stored gid layers component numbered written) with
      small | ⟨plan, layer, present, alone⟩
    · right
      rw [valueOf_length chunk (planned layers member).2, valueBytes_eq written] at small
      exact small
    · left
      cases Option.some.inj (groups.symm.trans present)
      rw [numbered] at alone
      rw [Option.some.inj alone]
      rfl

end Put

/-- The invariant does not look at the buffers of the pool. -/
theorem Config.Consistent.fetched {system : System Key Row cfg.numLayers}
    (consistent : cfg.Consistent system) {client : Client Row}
    (same : system.client.SameShapes client) : cfg.Consistent { system with client := client } := by
  obtain ⟨planned, unshaped, shaped, stored, capped⟩ := consistent
  obtain ⟨groups, shapes⟩ := same
  refine ⟨?_, ?_, ?_, ?_, ?_⟩
  · dsimp only
    rwa [groups]
  · dsimp only
    rwa [shapes]
  · unfold Client.Shaped at shaped ⊢
    dsimp only
    rwa [groups, shapes]
  · dsimp only
    rwa [groups]
  · unfold Config.Capped at capped ⊢
    dsimp only
    rwa [groups]

/-- A lost value leaves the state consistent. -/
theorem Config.Consistent.lose [DecidableEq Key] {system : System Key Row cfg.numLayers}
    (consistent : cfg.Consistent system) (wireKey : WireKey Key) :
    cfg.Consistent { system with wire := Function.update system.wire wireKey none } := by
  have kept : ∀ key gid component value,
      Function.update system.wire wireKey none (key, gid, component) = some value →
      system.wire (key, gid, component) = some value := by
    intro key gid component value there
    rw [Function.update_apply] at there
    split at there
    · cases there
    · exact there
  exact ⟨consistent.planned, consistent.unshaped, consistent.shaped,
    fun key gid component value there =>
      consistent.stored key gid component value (kept key gid component value there),
    fun key gid component value there =>
      consistent.capped key gid component value (kept key gid component value there)⟩

theorem getChunkCoalesced_sameShapes (system : System Key Row cfg.numLayers) (key : Key)
    (garbage : Nat → Row) :
    system.client.SameShapes (cfg.getChunkCoalesced system key garbage).1 := by
  unfold Config.getChunkCoalesced
  split
  · exact ⟨rfl, rfl⟩
  · exact getGroups_sameShapes _ _ _ _ _ _

variable (cfg) [DecidableEq Key]

/-- The states that calls meeting the condition reach. -/
def Config.ReachedFitting (garbage : Nat → Row) (system : System Key Row cfg.numLayers) : Prop :=
  Reachable (TakesWhere cfg.step cfg.Meets) (cfg.openSystem garbage) system

variable {cfg}

theorem consistent_reached {garbage : Nat → Row} {system : System Key Row cfg.numLayers}
    (reached : cfg.ReachedFitting garbage system) : cfg.Consistent system := by
  obtain ⟨trace, run⟩ := reached
  refine run.invariant cfg.Consistent (openSystem_consistent garbage) ?_
  rintro state events after consistent ⟨call, meets, stepped⟩
  cases call with
  | put key chunk onDevice =>
    cases stepped
    exact consistent.put key chunk onDevice meets
  | get key contents =>
    cases stepped
    exact consistent.fetched (getChunkCoalesced_sameShapes state key contents)
  | lose wireKey =>
    cases stepped
    exact consistent.lose wireKey

/-- While every chunk put has at least as many rows as the first and fits the cap, the
groups partition the layers, values respect the cap and a GET returns what was put, if it
returns a chunk. The first chunk that does not breaks one of them.

Proof: every value is that of the chunk last put under its key, with at least as many rows
as the shapes record. A GET that does not raise found values of exactly as many rows, so
they fill its buffers and are cut at their own stride. A shorter chunk is cut at the stride
of the first one and returns too many rows for every layer. -/
theorem coalesced_sound_iff (cfg : Config) (garbage : Nat → Row) :
    (∀ system : System Key Row cfg.numLayers, cfg.ReachedFitting garbage system →
      cfg.Sound system) ∧
    ∀ system : System Key Row cfg.numLayers, cfg.ReachedFitting garbage system →
      ∀ key chunk onDevice, cfg.Sound (cfg.putChunkCoalesced key chunk onDevice system) ↔
        cfg.numLayers = 0 ∨ cfg.Fits system chunk := by
  refine ⟨fun system reached => (consistent_reached reached).sound,
    fun system reached key chunk onDevice => ⟨fun sound => ?_, fun meets => ?_⟩⟩
  · by_contra misfit
    obtain ⟨some_layer, misfits⟩ := not_or.mp misfit
    exact (consistent_reached reached).put_broken key chunk onDevice some_layer misfits sound
  · exact ((consistent_reached reached).put key chunk onDevice meets).sound

/-- Two layers in one group, without a pool. -/
def twoLayers : Config := ⟨2, 100, false, false, 1, none⟩

/-- A chunk of two rows for each layer. -/
def longChunk : Chunk Nat 2 where
  blocks := 2
  kList := fun layer => [10 * layer + 1, 10 * layer + 2]
  vList := fun layer => [10 * layer + 3, 10 * layer + 4]
  positive := by decide
  kRows := fun _ _ => rfl
  vRows := fun _ _ => rfl

/-- A chunk of one row for each layer. -/
def shortChunk : Chunk Nat 2 where
  blocks := 1
  kList := fun layer => [50 + layer]
  vList := fun layer => [60 + layer]
  positive := by decide
  kRows := fun _ _ => rfl
  vRows := fun _ _ => rfl

/-- The first chunk put into an empty server fits. -/
theorem long_chunk_sound :
    twoLayers.Sound (twoLayers.putChunkCoalesced 7 longChunk false
      (twoLayers.openSystem fun _ => 0)) := by
  have fits : twoLayers.Fits (twoLayers.openSystem fun _ => 0 : System Nat Nat 2) longChunk := by
    constructor
    · intro first put
      cases put
    · decide
  exact ((coalesced_sound_iff twoLayers fun _ => 0).2 _ ⟨[], .start⟩ 7 longChunk false).mpr
    (.inr fits)

/-- A short chunk after a long one comes back with the row of the second layer in the
first, and with what the buffers held in the second. -/
theorem short_chunk_mixed :
    (twoLayers.getChunkCoalesced (twoLayers.putChunkCoalesced 8 shortChunk false
      (twoLayers.putChunkCoalesced 7 longChunk false (twoLayers.openSystem fun _ => 0)))
      8 (fun _ => 99)).2 =
      .found [(0, [50, 51], [60, 61]), (1, [99, 99], [99, 99])] := rfl

end Runs

end KvCache.Coalesced
