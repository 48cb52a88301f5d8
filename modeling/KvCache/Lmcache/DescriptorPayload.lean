import KvCache.Lmcache.TransferDescriptor

/-!
# The payload of a transfer descriptor

Worker and peer agree on the transfer by a JSON value: one profile, the identities of the
groups that share it, and a fingerprint of both. The sender encodes its groups; the receiver
rebuilds them, and answers with one exception for whatever is wrong.

The values come from `json.loads`, so their scalars are Python's. What `int` makes of floats
and strings, and `str` of other values, is left open.
-/

namespace KvCache.Lmcache.Descriptor

open Json

variable {φ : Type}

/-! ## Python -/

/-- What `int` finds in a float. -/
inductive FloatInt where
  | finite (value : Int)
  | nan
  | infinite
deriving DecidableEq, Repr

/-- How Python converts scalars to integers and to strings. -/
structure Python (φ : Type) where
  intOfFloat : φ → FloatInt
  intOfStr : String → Option Int
  strOf : Json φ → String

/-- Python's `int`. -/
def Python.int (python : Python φ) : Json φ → Except PyError Int
  | .int value => .ok value
  | .bool value => .ok (if value then 1 else 0)
  | .float value =>
    match python.intOfFloat value with
    | .finite value => .ok value
    | .nan => .error .valueError
    | .infinite => .error .overflowError
  | .str text =>
    match python.intOfStr text with
    | some value => .ok value
    | none => .error .valueError
  | _ => .error .typeError

/-- Python's `str`. -/
def Python.str (python : Python φ) : Json φ → String
  | .str text => text
  | value => python.strOf value

/-- The item at a key. -/
def item (value : Json φ) (key : String) : Except PyError (Json φ) :=
  match value with
  | .obj members =>
    match get? key members with
    | some found => .ok found
    | none => .error .keyError
  | _ => .error .typeError

/-- The items that iteration visits: of a dictionary its keys, of a string its characters. -/
def iterate : Json φ → Except PyError (List (Json φ))
  | .arr items => .ok items
  | .obj members => .ok ((members.map (·.1)).eraseDups.map .str)
  | .str text => .ok (text.toList.map fun char => .str (String.singleton char))
  | _ => .error .typeError

/-- An enumeration's member by its value. -/
def enumOf {α : Type} (members : List α) (value : α → String) : Json φ → Except PyError α
  | .str text =>
    match members.find? (value · == text) with
    | some member => .ok member
    | none => .error .valueError
  | _ => .error .valueError

/-- A value that may be `None`. -/
def optional {α : Type} (read : Json φ → Except PyError α) : Json φ → Except PyError (Option α)
  | .null => .ok none
  | value => (read value).map some

/-! ## Decoding -/

/-- Whether an item can be put into a set. -/
def hashable : Json φ → Bool
  | .arr _ | .obj _ => false
  | _ => true

/-- A set with these items has exactly the expected ones. An item that is no string stands as
`none`; that the message may not be able to sort such items is left out. -/
def sameKeys (actual : List (Option String)) (expected : List String) : Except PyError Unit :=
  if (∀ key ∈ expected, some key ∈ actual) ∧ ∀ key ∈ actual, key ∈ expected.map some then .ok ⟨⟩
  else .error .valueError

def requireExactKeys (value : Json φ) (expected : List String) : Except PyError Unit :=
  match value with
  | .obj members => sameKeys (members.map fun member => some member.1) expected
  | .str text => sameKeys (text.toList.map fun char => some (String.singleton char)) expected
  | .arr items =>
    if items.all hashable then
      sameKeys (items.map fun | .str text => some text | _ => none) expected
    else .error .typeError
  | _ => .error .typeError

def distributionKeys : List String := ["kind", "mesh_role", "tensor_axis"]

def tensorDistributionFromDict (python : Python φ) (value : Json φ) :
    Except PyError TensorDistribution := do
  requireExactKeys value distributionKeys
  let kind ← enumOf [.replicated, .sharded] TensorDistributionKind.value (← item value "kind")
  let meshRole ← optional (enumOf [.tensorParallel] MeshParallelRole.value)
    (← item value "mesh_role")
  let tensorAxis ← optional python.int (← item value "tensor_axis")
  TensorDistribution.make kind meshRole tensorAxis

def memoryObjDtypes (name : String) : Except PyError DType :=
  if name = "uint8" then .ok .uint8 else .error .keyError

def memberKeys : List String :=
  ["member_id", "shape_tail", "dtype", "bytes_per_block", "bytes_per_token"]

/-- A member, once its keys are checked. -/
def memberFromDict (python : Python φ) (member : Json φ) : Except PyError MemoryObjMemberSpec := do
  let memberId := python.str (← item member "member_id")
  let shapeTail ← (← iterate (← item member "shape_tail")).mapM python.int
  let dtype ← memoryObjDtypes (python.str (← item member "dtype"))
  let bytesPerBlock ← python.int (← item member "bytes_per_block")
  let bytesPerToken ← python.int (← item member "bytes_per_token")
  MemoryObjMemberSpec.make memberId shapeTail dtype bytesPerBlock bytesPerToken

def blockDistributionKeys : List String :=
  ["data_parallel_size", "context_parallel_size", "context_block_interleave"]

def blockDistributionFromDict (python : Python φ) (distribution : Json φ) :
    Except PyError BlockDistribution := do
  let dataParallelSize ← python.int (← item distribution "data_parallel_size")
  let contextParallelSize ← python.int (← item distribution "context_parallel_size")
  let contextBlockInterleave ← python.int (← item distribution "context_block_interleave")
  BlockDistribution.make dataParallelSize contextParallelSize contextBlockInterleave

def planKeys : List String :=
  ["backend_kind", "address_space", "block_distribution", "tensor_parallel_size",
    "member_tensor_distributions"]

/-- A plan, once its keys and those of its block distribution are checked. -/
def planFromDict (python : Python φ) (plan : Json φ) : Except PyError TransferPlan := do
  let backendKind ← enumOf [.regionRaw] TransferBackendKind.value (← item plan "backend_kind")
  let addressSpace ← enumOf [.pagedBlock] CacheAddressSpace.value (← item plan "address_space")
  let blockDistribution ← blockDistributionFromDict python (← item plan "block_distribution")
  let tensorParallelSize ← python.int (← item plan "tensor_parallel_size")
  let distributions ← iterate (← item plan "member_tensor_distributions")
  let memberTensorDistributions ← distributions.mapM (tensorDistributionFromDict python)
  TransferPlan.make backendKind addressSpace blockDistribution tensorParallelSize
    memberTensorDistributions

def policyKeys : List String := ["allocation_alignment", "prefix_alignment", "split_prefix"]

def policyFromDict (python : Python φ) (policy : Json φ) : Except PyError TransferPolicy := do
  let allocationAlignment ← python.int (← item policy "allocation_alignment")
  let prefixAlignment ← python.int (← item policy "prefix_alignment")
  let splitPrefix ← enumOf [.disabled, .exact_] SplitPrefixPolicy.value
    (← item policy "split_prefix")
  TransferPolicy.make allocationAlignment prefixAlignment splitPrefix

def groupKeys : List String :=
  ["group_id", "layer_id", "block_size", "memory_obj_members", "plan", "policy"]

def groupFromDict (python : Python φ) (value : Json φ) :
    Except PyError TransferGroupDescriptor := do
  requireExactKeys value groupKeys
  let plan ← item value "plan"
  requireExactKeys plan planKeys
  requireExactKeys (← item plan "block_distribution") blockDistributionKeys
  let policy ← item value "policy"
  requireExactKeys policy policyKeys
  let memoryObjMembers ← iterate (← item value "memory_obj_members")
  memoryObjMembers.forM (requireExactKeys · memberKeys)
  let groupId := python.str (← item value "group_id")
  let layerId ← python.int (← item value "layer_id")
  let blockSize ← python.int (← item value "block_size")
  let members ← memoryObjMembers.mapM (memberFromDict python)
  let plan ← planFromDict python plan
  let policy ← policyFromDict python policy
  TransferGroupDescriptor.make groupId layerId blockSize members plan policy

/-! ## Encoding -/

def TensorDistribution.json (distribution : TensorDistribution) : Json φ :=
  .obj [("kind", .str distribution.kind.value),
    ("mesh_role", (distribution.meshRole.map fun role => .str role.value).getD .null),
    ("tensor_axis", (distribution.tensorAxis.map .int).getD .null)]

def BlockDistribution.json (distribution : BlockDistribution) : Json φ :=
  .obj [("data_parallel_size", .int distribution.dataParallelSize),
    ("context_parallel_size", .int distribution.contextParallelSize),
    ("context_block_interleave", .int distribution.contextBlockInterleave)]

def TransferPlan.json (plan : TransferPlan) : Json φ :=
  .obj [("backend_kind", .str plan.backendKind.value),
    ("address_space", .str plan.addressSpace.value),
    ("block_distribution", plan.blockDistribution.json),
    ("tensor_parallel_size", .int plan.tensorParallelSize),
    ("member_tensor_distributions", .arr (plan.memberTensorDistributions.map (·.json)))]

def MemoryObjMemberSpec.json (member : MemoryObjMemberSpec) : Json φ :=
  .obj [("member_id", .str member.memberId), ("shape_tail", .arr (member.shapeTail.map .int)),
    ("dtype", .str member.dtype.value), ("bytes_per_block", .int member.bytesPerBlock),
    ("bytes_per_token", .int member.bytesPerToken)]

def TransferPolicy.json (policy : TransferPolicy) : Json φ :=
  .obj [("allocation_alignment", .int policy.allocationAlignment),
    ("prefix_alignment", .int policy.prefixAlignment),
    ("split_prefix", .str policy.splitPrefix.value)]

/-- The members of a profile that all groups share. -/
def TransferProfile.members (profile : TransferProfile) : List (String × Json φ) :=
  [("block_size", .int profile.blockSize),
    ("memory_obj_members", .arr (profile.memoryObjMembers.map (·.json))),
    ("plan", profile.plan.json), ("policy", profile.policy.json)]

/-- The identity of a group. -/
def TransferGroupDescriptor.identity (group : TransferGroupDescriptor) : List (String × Json φ) :=
  [("group_id", .str group.groupId), ("layer_id", .int group.layerId)]

/-- The fields of a group in their order. -/
def TransferGroupDescriptor.members (group : TransferGroupDescriptor) : List (String × Json φ) :=
  group.identity ++ group.profile.members

/-- A dictionary without a key. -/
def pop (key : String) (members : List (String × Json φ)) : List (String × Json φ) :=
  members.filter (·.1 ≠ key)

section Fingerprint

variable (sha256 : List Char → String) (floats : FloatText φ)

/-- The digest of the canonical text. -/
def fingerprint (value : Json φ) : String := sha256 (spell floats [] (canonical value))

def descriptorPayload (groups : List TransferGroupDescriptor) : Except PyError (Json φ) := do
  let profile ← singleGroupProfile groups
  let body := pop "layer_id" (pop "group_id" profile.members)
  let content : List (String × Json φ) :=
    [("profile", .obj body), ("groups", .arr (groups.map fun group => .obj group.identity))]
  return .obj (("fingerprint", .str (fingerprint sha256 floats (.obj content))) :: content)

/-- The group with a profile and an identity. -/
def entryOf (python : Python φ) (body : List (String × Json φ)) (group : Json φ) :
    Except PyError TransferGroupDescriptor := do
  requireExactKeys group ["group_id", "layer_id"]
  let groupId ← item group "group_id"
  let layerId ← item group "layer_id"
  groupFromDict python (.obj (body ++ [("group_id", groupId), ("layer_id", layerId)]))

/-- The groups of a payload, before the fingerprint is looked at. -/
def entriesOf (python : Python φ) (payload : Json φ) :
    Except PyError (List TransferGroupDescriptor) := do
  requireExactKeys payload ["fingerprint", "profile", "groups"]
  match ← item payload "profile" with
  | .obj body => (← iterate (← item payload "groups")).mapM (entryOf python body)
  | _ => .error .typeError

/-- The clause that turns exceptions into `ValueError`. -/
def excepted {α : Type} : Except PyError α → Except PyError α
  | .error .keyError | .error .typeError | .error .valueError => .error .valueError
  | other => other

/-- Whether a payload carries a fingerprint. -/
def carries (payload : Json φ) (digest : String) : Bool :=
  match item payload "fingerprint" with
  | .ok (.str text) => text == digest
  | _ => false

def transferGroupsFromPayload (python : Python φ) (payload : Json φ) :
    Except PyError (List TransferGroupDescriptor) := do
  let entries ← excepted (entriesOf python payload)
  let content : Json φ :=
    .obj [("profile", ← item payload "profile"), ("groups", ← item payload "groups")]
  if carries payload (fingerprint sha256 floats content) = false then .error .valueError
  else if entries = [] ∨ ¬ (entries.map (·.layerId)).Nodup ∨
      ¬ (entries.map (·.groupId)).Nodup then .error .valueError
  else .ok entries

end Fingerprint

end KvCache.Lmcache.Descriptor
