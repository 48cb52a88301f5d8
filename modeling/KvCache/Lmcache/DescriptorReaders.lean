import KvCache.Foundation.Raising
import KvCache.Lmcache.DescriptorPayload

/-!
# Readers of descriptor values

A reader takes a JSON value apart and an encoder puts it together. A reader accepts what the
encoder makes. What else it accepts differs from the encoding of the result, unless the value
is exact: every scalar has the type that its field has. On exact values a reader never raises
`OverflowError`.

Each structure of a descriptor has its reader; each is put together from those of its fields.
-/

namespace KvCache.Lmcache.Descriptor

open Json Raising

variable {φ : Type}

/-- A reader accepts what the encoder writes, and of other values only those that are not
exact; on exact values it raises only what decoding expects. -/
structure Reads {α : Type} (read : Json φ → Except PyError α) (write : α → Json φ)
    (Exact : Json φ → Prop) : Prop where
  back : ∀ value, read (write value) = .ok value
  same : ∀ {json value}, read json = .ok value → (Same (write value) json ↔ Exact json)
  calm : ∀ {json}, Exact json → Avoids .overflowError (read json)

/-! ## Exact values -/

/-- An integer, or what `int` refuses. -/
def ExactInt (python : Python φ) : Json φ → Prop
  | .bool _ => False
  | .float value => python.intOfFloat value = .nan
  | .str text => python.intOfStr text = none
  | _ => True

/-- A string. -/
def ExactStr : Json φ → Prop
  | .str _ => True
  | _ => False

/-- A name of a type, or what is no name of one. -/
def ExactDtype (python : Python φ) : Json φ → Prop
  | .str _ => True
  | other => python.strOf other ≠ "uint8"

/-- An array of exact items, or what iteration refuses. -/
def ExactItems (Exact : Json φ → Prop) : Json φ → Prop
  | .arr items => ∀ item ∈ items, Exact item
  | .obj _ | .str _ => False
  | _ => True

/-- Read every item that iteration visits. -/
def readItems {α : Type} (read : Json φ → Except PyError α) (json : Json φ) :
    Except PyError (List α) := do
  (← iterate json).mapM read

/-- A condition on the item at a key, where there is one. -/
def At (json : Json φ) (key : String) (Condition : Json φ → Prop) : Prop :=
  ∀ found, item json key = .ok found → Condition found

section Exact

variable (python : Python φ)

def ExactDistribution (json : Json φ) : Prop := At json "tensor_axis" (ExactInt python)

/-- A block distribution with its keys. -/
def readBlockDistribution (json : Json φ) : Except PyError BlockDistribution := do
  requireExactKeys json blockDistributionKeys
  blockDistributionFromDict python json

def ExactBlockDistribution (json : Json φ) : Prop :=
  ∀ key ∈ blockDistributionKeys, At json key (ExactInt python)

/-- A policy with its keys. -/
def readPolicy (json : Json φ) : Except PyError TransferPolicy := do
  requireExactKeys json policyKeys
  policyFromDict python json

def ExactPolicy (json : Json φ) : Prop :=
  At json "allocation_alignment" (ExactInt python) ∧ At json "prefix_alignment" (ExactInt python)

/-- A member with its keys. -/
def readMember (json : Json φ) : Except PyError MemoryObjMemberSpec := do
  requireExactKeys json memberKeys
  memberFromDict python json

def ExactMember (json : Json φ) : Prop :=
  At json "member_id" ExactStr ∧ At json "shape_tail" (ExactItems (ExactInt python)) ∧
    At json "dtype" (ExactDtype python) ∧ At json "bytes_per_block" (ExactInt python) ∧
    At json "bytes_per_token" (ExactInt python)

/-- A plan with its keys and those of its block distribution. -/
def readPlan (json : Json φ) : Except PyError TransferPlan := do
  requireExactKeys json planKeys
  requireExactKeys (← item json "block_distribution") blockDistributionKeys
  planFromDict python json

def ExactPlan (json : Json φ) : Prop :=
  At json "block_distribution" (ExactBlockDistribution python) ∧
    At json "tensor_parallel_size" (ExactInt python) ∧
    At json "member_tensor_distributions" (ExactItems (ExactDistribution python))

end Exact

/-! ## Scalars -/

theorem reads_int (python : Python φ) : Reads python.int .int (ExactInt python) where
  back _ := rfl
  same {json value} read := by
    rw [same_int_iff]
    cases json with
    | int found =>
      cases read
      exact iff_of_true rfl trivial
    | bool flag => exact iff_of_false nofun id
    | float found =>
      refine iff_of_false nofun fun refused => ?_
      rw [Python.int, show python.intOfFloat found = .nan from refused] at read
      cases read
    | str text =>
      refine iff_of_false nofun fun refused => ?_
      rw [Python.int, show python.intOfStr text = none from refused] at read
      cases read
    | null | arr | obj => cases read
  calm {json} exact_ := by
    cases json with
    | int | bool | null | arr | obj => exact nofun
    | float found =>
      rw [Python.int, show python.intOfFloat found = .nan from exact_]
      exact nofun
    | str text =>
      rw [Python.int, show python.intOfStr text = none from exact_]
      exact nofun

theorem reads_str (python : Python φ) :
    Reads (fun json => .ok (python.str json)) .str ExactStr where
  back _ := rfl
  same {json value} read := by
    rw [same_str_iff]
    cases json with
    | str text =>
      cases read
      exact iff_of_true rfl trivial
    | null | bool | int | float | arr | obj => exact iff_of_false nofun id
  calm _ := nofun

theorem reads_dtype (python : Python φ) :
    Reads (fun json => memoryObjDtypes (python.str json)) (fun dtype => .str dtype.value)
      (ExactDtype python) where
  back _ := rfl
  same {json value} read := by
    rw [same_str_iff]
    rw [memoryObjDtypes] at read
    split at read
    · next named =>
      cases json with
      | str text =>
        rw [Python.str] at named
        exact iff_of_true (congrArg Json.str named) trivial
      | null | bool | int | float | arr | obj =>
        exact iff_of_false nofun fun other => other named
    · cases read
  calm {json} _ := by
    rw [memoryObjDtypes]
    split <;> exact nofun

/-- An enumeration's values name its members. -/
theorem reads_enum {α : Type} {members : List α} {value : α → String}
    (complete : ∀ member, members.find? (value · == value member) = some member) :
    Reads (φ := φ) (enumOf members value) (fun member => .str (value member)) fun _ => True where
  back member := by rw [enumOf, complete]
  same {json member} read := by
    rw [same_str_iff]
    cases json with
    | str text =>
      refine iff_of_true ?_ trivial
      rw [enumOf] at read
      split at read
      · next found chosen =>
        cases read
        have named := List.find?_some chosen
        rw [beq_iff_eq.mp named]
      · cases read
    | null | bool | int | float | arr | obj => cases read
  calm {json} _ := by
    cases json with
    | str text =>
      rw [enumOf]
      split <;> exact nofun
    | null | bool | int | float | arr | obj => exact nofun

/-! ## Optional values and lists -/

theorem reads_optional {α : Type} {read : Json φ → Except PyError α} {write : α → Json φ}
    {Exact : Json φ → Prop} (reads : Reads read write Exact) (written : ∀ value, write value ≠ .null)
    (absent : Exact .null) :
    Reads (optional read) (fun value => (value.map write).getD .null) Exact where
  back value := by
    cases value with
    | none => rfl
    | some value =>
      have back := reads.back value
      rw [Option.map_some, Option.getD_some]
      cases shape : write value with
      | null => exact absurd shape (written value)
      | bool | int | float | str | arr | obj =>
        rw [← shape, optional, back]
        · rfl
        · exact written value
  same {json value} accepted := by
    by_cases null : json = .null
    · subst null
      cases accepted
      exact iff_of_true (Same.refl _) absent
    · have inner : (read json).map some = .ok value := by
        rwa [optional] at accepted
        exact null
      obtain ⟨value, found, rfl⟩ := map_eq_ok.mp inner
      exact reads.same found
  calm {json} exact_ := by
    by_cases null : json = .null
    · subst null
      exact nofun
    · rw [optional]
      · exact (reads.calm exact_).map some
      · exact null

theorem forall₂_same {α : Type} {read : Json φ → Except PyError α} {write : α → Json φ}
    {Exact : Json φ → Prop} (reads : Reads read write Exact) {items : List (Json φ)}
    {values : List α} (accepted : List.Forall₂ (fun item value => read item = .ok value) items values) :
    List.Forall₂ Same (values.map write) items ↔ ∀ item ∈ items, Exact item := by
  induction accepted with
  | nil => simp
  | cons first _ inductionHypothesis =>
    rw [List.map_cons, List.forall₂_cons, List.forall_mem_cons, reads.same first,
      inductionHypothesis]

theorem reads_items {α : Type} {read : Json φ → Except PyError α} {write : α → Json φ}
    {Exact : Json φ → Prop} (reads : Reads read write Exact) :
    Reads (readItems read) (fun values => .arr (values.map write)) (ExactItems Exact) where
  back values := by
    change (values.map write).mapM read = .ok values
    rw [mapM_eq_ok, List.forall₂_map_left_iff]
    exact List.forall₂_same.mpr fun value _ => reads.back value
  same {json values} accepted := by
    obtain ⟨items, iterated, accepted⟩ := bind_eq_ok.mp accepted
    cases json with
    | arr found =>
      cases iterated
      rw [same_arr_iff]
      exact forall₂_same reads (mapM_eq_ok.mp accepted)
    | obj | str =>
      refine iff_of_false (fun same => ?_) id
      obtain ⟨_, array⟩ := same_arr_cases same
      cases array
    | null | bool | int | float => cases iterated
  calm {json} exact_ := by
    cases json with
    | arr items =>
      exact Avoids.bind nofun fun _ iterated => by
        cases iterated
        exact Avoids.mapM fun item member => reads.calm (exact_ item member)
    | obj | str => exact exact_.elim
    | null | bool | int | float => exact nofun

/-! ## Dictionaries -/

theorem at_iff {json found : Json φ} {key : String} {Condition : Json φ → Prop}
    (here : item json key = .ok found) : At json key Condition ↔ Condition found := by
  constructor
  · intro condition
    exact condition found here
  · intro condition other there
    rw [here] at there
    exact Except.ok.inj there ▸ condition

theorem item_eq_ok {json found : Json φ} {key : String} :
    item json key = .ok found ↔ ∃ members, json = .obj members ∧ get? key members = some found := by
  constructor
  · intro here
    cases json with
    | obj members =>
      rw [item] at here
      split at here
      · next there =>
        cases here
        exact ⟨members, rfl, there⟩
      · cases here
    | null | bool | int | float | str | arr => cases here
  · rintro ⟨members, rfl, there⟩
    rw [item, there]

theorem item_calm (json : Json φ) (key : String) : Avoids .overflowError (item json key) := by
  cases json with
  | obj members =>
    rw [item]
    split <;> exact nofun
  | null | bool | int | float | str | arr => exact nofun

theorem iterate_calm (json : Json φ) : Avoids .overflowError (iterate json) := by
  cases json <;> exact nofun

theorem sameKeys_calm (actual : List (Option String)) (expected : List String) :
    Avoids .overflowError (sameKeys actual expected) := by
  rw [sameKeys]
  split <;> exact nofun

theorem requireExactKeys_calm (json : Json φ) (expected : List String) :
    Avoids .overflowError (requireExactKeys json expected) := by
  cases json with
  | obj | str => exact sameKeys_calm _ _
  | arr items =>
    rw [requireExactKeys]
    split
    · exact sameKeys_calm _ _
    · exact nofun
  | null | bool | int | float => exact nofun

/-- A dictionary passes where its keys are the expected ones. -/
theorem requireExactKeys_obj {members : List (String × Json φ)} {expected : List String} :
    requireExactKeys (.obj members) expected = .ok ⟨⟩ ↔
      ∀ key, key ∈ members.map (·.1) ↔ key ∈ expected := by
  rw [requireExactKeys, sameKeys]
  have listed : members.map (fun member => some member.1) = (members.map (·.1)).map some := by
    rw [List.map_map]
    rfl
  rw [listed]
  constructor
  · intro passed key
    split at passed
    · next both =>
      obtain ⟨there, known⟩ := both
      constructor
      · intro member
        obtain ⟨_, named, same⟩ :=
          List.mem_map.mp (known (some key) (List.mem_map.mpr ⟨key, member, rfl⟩))
        exact Option.some.inj same ▸ named
      · intro member
        obtain ⟨_, named, same⟩ := List.mem_map.mp (there key member)
        exact Option.some.inj same ▸ named
    · cases passed
  · intro same
    refine if_pos ⟨fun key member => ?_, fun key member => ?_⟩
    · exact List.mem_map.mpr ⟨key, (same key).mpr member, rfl⟩
    · obtain ⟨name, named, rfl⟩ := List.mem_map.mp member
      exact List.mem_map.mpr ⟨name, (same name).mp named, rfl⟩

/-- A dictionary with the keys of an encoding is the same as it where its items are. -/
theorem same_fields {json found : Json φ} {key : String} {fields : List (String × Json φ)}
    (distinct : (fields.map (·.1)).Nodup)
    (checked : requireExactKeys json (fields.map (·.1)) = .ok ⟨⟩)
    (subscripted : item json key = .ok found) :
    Same (.obj fields) json ↔ ∀ field ∈ fields, At json field.1 (Same field.2) := by
  obtain ⟨members, rfl, -⟩ := item_eq_ok.mp subscripted
  rw [same_obj_of_keys _ (fun _ => Iff.rfl) (requireExactKeys_obj.mp checked)]
  constructor
  · intro same field member found here
    obtain ⟨_, shape, there⟩ := item_eq_ok.mp here
    cases shape
    exact same field.1 (List.mem_map_of_mem member) field.2 (get?_of_mem distinct member) found there
  · intro same key member value there found also
    obtain ⟨field, inside, rfl⟩ := List.mem_map.mp member
    rw [get?_of_mem distinct inside] at there
    cases there
    exact same field inside found (item_eq_ok.mpr ⟨members, rfl, also⟩)

/-! ## Enumerations and optional fields -/

theorem reads_kind : Reads (φ := φ) (enumOf [.replicated, .sharded] TensorDistributionKind.value)
    (fun kind => .str kind.value) fun _ => True :=
  reads_enum fun kind => by cases kind <;> rfl

theorem reads_role : Reads (φ := φ) (optional (enumOf [.tensorParallel] MeshParallelRole.value))
    (fun role => (role.map fun role => Json.str role.value).getD .null) fun _ => True :=
  reads_optional (reads_enum fun _ => rfl) nofun trivial

theorem reads_backend : Reads (φ := φ) (enumOf [.regionRaw] TransferBackendKind.value)
    (fun kind => .str kind.value) fun _ => True :=
  reads_enum fun _ => rfl

theorem reads_space : Reads (φ := φ) (enumOf [.pagedBlock] CacheAddressSpace.value)
    (fun space => .str space.value) fun _ => True :=
  reads_enum fun _ => rfl

theorem reads_split : Reads (φ := φ) (enumOf [.disabled, .exact_] SplitPrefixPolicy.value)
    (fun split => .str split.value) fun _ => True :=
  reads_enum fun split => by cases split <;> rfl

theorem reads_axis (python : Python φ) : Reads (optional python.int)
    (fun axis => (axis.map Json.int).getD .null) (ExactInt python) :=
  reads_optional (reads_int python) nofun trivial

/-! ## Structures -/

section Structures

variable (python : Python φ)

theorem reads_distribution :
    Reads (tensorDistributionFromDict python) (·.json) (ExactDistribution python) where
  back distribution := by
    have checked : requireExactKeys (distribution.json (φ := φ)) distributionKeys = .ok ⟨⟩ :=
      requireExactKeys_obj.mpr fun _ => Iff.rfl
    have made : TensorDistribution.make distribution.kind distribution.meshRole
      distribution.tensorAxis = .ok distribution := TensorDistribution.make_eq_ok.mpr ⟨rfl, rfl, rfl⟩
    rw [tensorDistributionFromDict, checked]
    simp [TensorDistribution.json, item, get?, bind, Except.bind, reads_kind.back,
      reads_role.back, (reads_axis python).back, made]
  same {json distribution} accepted := by
    obtain ⟨_, checked, accepted⟩ := bind_eq_ok.mp accepted
    obtain ⟨kind, kindItem, accepted⟩ := bind_eq_ok.mp accepted
    obtain ⟨_, kindRead, accepted⟩ := bind_eq_ok.mp accepted
    obtain ⟨role, roleItem, accepted⟩ := bind_eq_ok.mp accepted
    obtain ⟨_, roleRead, accepted⟩ := bind_eq_ok.mp accepted
    obtain ⟨axis, axisItem, accepted⟩ := bind_eq_ok.mp accepted
    obtain ⟨_, axisRead, accepted⟩ := bind_eq_ok.mp accepted
    obtain ⟨rfl, rfl, rfl⟩ := TensorDistribution.make_eq_ok.mp accepted
    rw [TensorDistribution.json, same_fields (by simp) checked kindItem, ExactDistribution]
    simp [at_iff kindItem, at_iff roleItem, at_iff axisItem, reads_kind.same kindRead,
      reads_role.same roleRead, (reads_axis python).same axisRead]
  calm {json} exact_ := by
    refine (requireExactKeys_calm _ _).bind fun _ _ => ?_
    refine (item_calm _ _).bind fun _ _ => (reads_kind.calm trivial).bind fun _ _ => ?_
    refine (item_calm _ _).bind fun _ _ => (reads_role.calm trivial).bind fun _ _ => ?_
    refine (item_calm _ _).bind fun axis axisItem =>
      ((reads_axis python).calm (exact_ axis axisItem)).bind fun _ _ => ?_
    exact TensorDistribution.make_calm _ _ _

theorem reads_blockDistribution :
    Reads (readBlockDistribution python) (·.json) (ExactBlockDistribution python) where
  back distribution := by
    have checked : requireExactKeys (distribution.json (φ := φ)) blockDistributionKeys = .ok ⟨⟩ :=
      requireExactKeys_obj.mpr fun _ => Iff.rfl
    have made : BlockDistribution.make distribution.dataParallelSize
        distribution.contextParallelSize distribution.contextBlockInterleave = .ok distribution :=
      BlockDistribution.make_eq_ok.mpr ⟨rfl, rfl, rfl⟩
    rw [readBlockDistribution, checked]
    simp [blockDistributionFromDict, BlockDistribution.json, item, get?, bind, Except.bind,
      (reads_int python).back, made]
  same {json distribution} accepted := by
    obtain ⟨_, checked, accepted⟩ := bind_eq_ok.mp accepted
    obtain ⟨data, dataItem, accepted⟩ := bind_eq_ok.mp accepted
    obtain ⟨_, dataRead, accepted⟩ := bind_eq_ok.mp accepted
    obtain ⟨context, contextItem, accepted⟩ := bind_eq_ok.mp accepted
    obtain ⟨_, contextRead, accepted⟩ := bind_eq_ok.mp accepted
    obtain ⟨interleave, interleaveItem, accepted⟩ := bind_eq_ok.mp accepted
    obtain ⟨_, interleaveRead, accepted⟩ := bind_eq_ok.mp accepted
    obtain ⟨rfl, rfl, rfl⟩ := BlockDistribution.make_eq_ok.mp accepted
    rw [BlockDistribution.json, same_fields (by simp) checked dataItem, ExactBlockDistribution]
    simp [blockDistributionKeys, at_iff dataItem, at_iff contextItem, at_iff interleaveItem,
      (reads_int python).same dataRead, (reads_int python).same contextRead,
      (reads_int python).same interleaveRead]
  calm {json} exact_ := by
    have field : ∀ key ∈ blockDistributionKeys, ∀ found, item json key = .ok found →
        Avoids .overflowError (python.int found) :=
      fun key member found here => (reads_int python).calm (exact_ key member found here)
    refine (requireExactKeys_calm _ _).bind fun _ _ => ?_
    refine (item_calm _ _).bind fun _ here => (field _ (by decide) _ here).bind fun _ _ => ?_
    refine (item_calm _ _).bind fun _ here => (field _ (by decide) _ here).bind fun _ _ => ?_
    refine (item_calm _ _).bind fun _ here => (field _ (by decide) _ here).bind fun _ _ => ?_
    exact BlockDistribution.make_calm _ _ _

theorem reads_policy : Reads (readPolicy python) (·.json) (ExactPolicy python) where
  back policy := by
    have checked : requireExactKeys (policy.json (φ := φ)) policyKeys = .ok ⟨⟩ :=
      requireExactKeys_obj.mpr fun _ => Iff.rfl
    have made : TransferPolicy.make policy.allocationAlignment policy.prefixAlignment
      policy.splitPrefix = .ok policy := TransferPolicy.make_eq_ok.mpr ⟨rfl, rfl, rfl⟩
    rw [readPolicy, checked]
    simp [policyFromDict, TransferPolicy.json, item, get?, bind, Except.bind,
      (reads_int python).back, reads_split.back, made]
  same {json policy} accepted := by
    obtain ⟨_, checked, accepted⟩ := bind_eq_ok.mp accepted
    obtain ⟨allocation, allocationItem, accepted⟩ := bind_eq_ok.mp accepted
    obtain ⟨_, allocationRead, accepted⟩ := bind_eq_ok.mp accepted
    obtain ⟨alignment, alignmentItem, accepted⟩ := bind_eq_ok.mp accepted
    obtain ⟨_, alignmentRead, accepted⟩ := bind_eq_ok.mp accepted
    obtain ⟨split, splitItem, accepted⟩ := bind_eq_ok.mp accepted
    obtain ⟨_, splitRead, accepted⟩ := bind_eq_ok.mp accepted
    obtain ⟨rfl, rfl, rfl⟩ := TransferPolicy.make_eq_ok.mp accepted
    rw [TransferPolicy.json, same_fields (by simp) checked allocationItem, ExactPolicy]
    simp [at_iff allocationItem, at_iff alignmentItem, at_iff splitItem, reads_split.same splitRead,
      (reads_int python).same allocationRead, (reads_int python).same alignmentRead]
  calm {json} exact_ := by
    obtain ⟨allocation, alignment⟩ := exact_
    refine (requireExactKeys_calm _ _).bind fun _ _ => ?_
    refine (item_calm _ _).bind fun found here =>
      ((reads_int python).calm (allocation found here)).bind fun _ _ => ?_
    refine (item_calm _ _).bind fun found here =>
      ((reads_int python).calm (alignment found here)).bind fun _ _ => ?_
    refine (item_calm _ _).bind fun _ _ => (reads_split.calm trivial).bind fun _ _ => ?_
    exact TransferPolicy.make_calm _ _ _

theorem reads_member : Reads (readMember python) (·.json) (ExactMember python) where
  back member := by
    have checked : requireExactKeys (member.json (φ := φ)) memberKeys = .ok ⟨⟩ :=
      requireExactKeys_obj.mpr fun _ => Iff.rfl
    have made : MemoryObjMemberSpec.make member.memberId member.shapeTail member.dtype
        member.bytesPerBlock member.bytesPerToken = .ok member :=
      MemoryObjMemberSpec.make_eq_ok.mpr ⟨rfl, rfl, rfl, rfl, rfl⟩
    have shape : (member.shapeTail.map Json.int).mapM python.int = .ok member.shapeTail :=
      (reads_items (reads_int python)).back member.shapeTail
    have dtype : memoryObjDtypes member.dtype.value = .ok member.dtype :=
      (reads_dtype python).back member.dtype
    rw [readMember, checked]
    simp [memberFromDict, MemoryObjMemberSpec.json, item, get?, iterate, bind, Except.bind,
      (reads_int python).back, Python.str, shape, dtype, made]
  same {json member} accepted := by
    obtain ⟨_, checked, accepted⟩ := bind_eq_ok.mp accepted
    obtain ⟨id, idItem, accepted⟩ := bind_eq_ok.mp accepted
    obtain ⟨shape, shapeItem, accepted⟩ := bind_eq_ok.mp accepted
    obtain ⟨dims, dimsRead, accepted⟩ := bind_eq_ok.mp accepted
    obtain ⟨_, shapeRead, accepted⟩ := bind_eq_ok.mp accepted
    obtain ⟨dtype, dtypeItem, accepted⟩ := bind_eq_ok.mp accepted
    obtain ⟨_, dtypeRead, accepted⟩ := bind_eq_ok.mp accepted
    obtain ⟨block, blockItem, accepted⟩ := bind_eq_ok.mp accepted
    obtain ⟨_, blockRead, accepted⟩ := bind_eq_ok.mp accepted
    obtain ⟨token, tokenItem, accepted⟩ := bind_eq_ok.mp accepted
    obtain ⟨_, tokenRead, accepted⟩ := bind_eq_ok.mp accepted
    obtain ⟨named, rfl, rfl, rfl, rfl⟩ := MemoryObjMemberSpec.make_eq_ok.mp accepted
    have shapeRead := bind_eq_ok.mpr ⟨dims, dimsRead, shapeRead⟩
    have idRead : Except.ok (ε := PyError) (python.str id) = .ok member.memberId := by rw [named]
    rw [MemoryObjMemberSpec.json, same_fields (by simp) checked idItem, ExactMember]
    simp [at_iff idItem, at_iff shapeItem, at_iff dtypeItem, at_iff blockItem, at_iff tokenItem,
      (reads_str python).same idRead, (reads_items (reads_int python)).same shapeRead,
      (reads_dtype python).same dtypeRead, (reads_int python).same blockRead,
      (reads_int python).same tokenRead]
  calm {json} exact_ := by
    obtain ⟨_, shape, dtype, block, token⟩ := exact_
    refine (requireExactKeys_calm _ _).bind fun _ _ => ?_
    refine (item_calm _ _).bind fun _ _ => ?_
    refine (item_calm _ _).bind fun dims here => (iterate_calm _).bind fun items visited => ?_
    have dims := (reads_items (reads_int python)).calm (shape dims here)
    rw [readItems, visited] at dims
    refine Avoids.bind dims fun _ _ => ?_
    refine (item_calm _ _).bind fun found here =>
      ((reads_dtype python).calm (dtype found here)).bind fun _ _ => ?_
    refine (item_calm _ _).bind fun found here =>
      ((reads_int python).calm (block found here)).bind fun _ _ => ?_
    refine (item_calm _ _).bind fun found here =>
      ((reads_int python).calm (token found here)).bind fun _ _ => ?_
    exact MemoryObjMemberSpec.make_calm _ _ _ _ _

theorem reads_plan : Reads (readPlan python) (·.json) (ExactPlan python) where
  back plan := by
    have checked : requireExactKeys (plan.json (φ := φ)) planKeys = .ok ⟨⟩ :=
      requireExactKeys_obj.mpr fun _ => Iff.rfl
    have nested : requireExactKeys (plan.blockDistribution.json (φ := φ))
        blockDistributionKeys = .ok ⟨⟩ := requireExactKeys_obj.mpr fun _ => Iff.rfl
    have block := (reads_blockDistribution python).back plan.blockDistribution
    rw [readBlockDistribution, nested] at block
    have distributions : (plan.memberTensorDistributions.map (·.json)).mapM
        (tensorDistributionFromDict python) = .ok plan.memberTensorDistributions :=
      (reads_items (reads_distribution python)).back plan.memberTensorDistributions
    have made : TransferPlan.make plan.backendKind plan.addressSpace plan.blockDistribution
        plan.tensorParallelSize plan.memberTensorDistributions = .ok plan :=
      TransferPlan.make_eq_ok.mpr ⟨rfl, rfl, rfl, rfl, rfl⟩
    rw [readPlan, checked]
    simp only [bind, Except.bind] at block
    simp [planFromDict, TransferPlan.json, item, get?, iterate, bind, Except.bind, nested,
      reads_backend.back, reads_space.back, (reads_int python).back, block, distributions, made]
  same {json plan} accepted := by
    obtain ⟨_, checked, accepted⟩ := bind_eq_ok.mp accepted
    obtain ⟨block, blockItem, accepted⟩ := bind_eq_ok.mp accepted
    obtain ⟨_, nested, accepted⟩ := bind_eq_ok.mp accepted
    obtain ⟨backend, backendItem, accepted⟩ := bind_eq_ok.mp accepted
    obtain ⟨_, backendRead, accepted⟩ := bind_eq_ok.mp accepted
    obtain ⟨space, spaceItem, accepted⟩ := bind_eq_ok.mp accepted
    obtain ⟨_, spaceRead, accepted⟩ := bind_eq_ok.mp accepted
    obtain ⟨again, againItem, accepted⟩ := bind_eq_ok.mp accepted
    obtain rfl : block = again := Except.ok.inj (blockItem.symm.trans againItem)
    obtain ⟨_, blockRead, accepted⟩ := bind_eq_ok.mp accepted
    obtain ⟨size, sizeItem, accepted⟩ := bind_eq_ok.mp accepted
    obtain ⟨_, sizeRead, accepted⟩ := bind_eq_ok.mp accepted
    obtain ⟨listed, listedItem, accepted⟩ := bind_eq_ok.mp accepted
    obtain ⟨items, visited, accepted⟩ := bind_eq_ok.mp accepted
    obtain ⟨_, listedRead, accepted⟩ := bind_eq_ok.mp accepted
    obtain ⟨rfl, rfl, rfl, rfl, rfl⟩ := TransferPlan.make_eq_ok.mp accepted
    have blockRead : readBlockDistribution python block = .ok plan.blockDistribution :=
      bind_eq_ok.mpr ⟨⟨⟩, nested, blockRead⟩
    have listedRead := bind_eq_ok.mpr ⟨items, visited, listedRead⟩
    rw [TransferPlan.json, same_fields (by simp) checked backendItem, ExactPlan]
    simp [at_iff backendItem, at_iff spaceItem, at_iff blockItem, at_iff sizeItem,
      at_iff listedItem, reads_backend.same backendRead, reads_space.same spaceRead,
      (reads_blockDistribution python).same blockRead, (reads_int python).same sizeRead,
      (reads_items (reads_distribution python)).same listedRead]
  calm {json} exact_ := by
    obtain ⟨block, size, listed⟩ := exact_
    refine (requireExactKeys_calm _ _).bind fun _ _ => ?_
    refine (item_calm _ _).bind fun first here => ?_
    refine (requireExactKeys_calm _ _).bind fun _ nested => ?_
    refine (item_calm _ _).bind fun _ _ => (reads_backend.calm trivial).bind fun _ _ => ?_
    refine (item_calm _ _).bind fun _ _ => (reads_space.calm trivial).bind fun _ _ => ?_
    refine (item_calm _ _).bind fun found again => ?_
    obtain rfl : first = found := Except.ok.inj (here.symm.trans again)
    have blocks := (reads_blockDistribution python).calm (block first here)
    rw [readBlockDistribution, nested] at blocks
    refine Avoids.bind blocks fun _ _ => ?_
    refine (item_calm _ _).bind fun found here =>
      ((reads_int python).calm (size found here)).bind fun _ _ => ?_
    refine (item_calm _ _).bind fun found here => (iterate_calm _).bind fun items visited => ?_
    have distributions := (reads_items (reads_distribution python)).calm (listed found here)
    rw [readItems, visited] at distributions
    refine Avoids.bind distributions fun _ _ => ?_
    exact TransferPlan.make_calm _ _ _ _ _

end Structures

end KvCache.Lmcache.Descriptor
