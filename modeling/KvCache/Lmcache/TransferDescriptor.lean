import KvCache.Foundation.JsonCanonical
import KvCache.Foundation.Raising
import Mathlib

/-!
# Transfer descriptors

What a worker tells its peer about the transfer of its cache: for each layer a group with an
identity and a profile, the geometry of its blocks, its members in a memory object, the plan
and the policy. Every structure carries the checks of its constructor, which answers with the
exception that Python raises where they fail.
-/

namespace KvCache.Lmcache.Descriptor

open Json Raising

/-- The exceptions that building and decoding descriptors can raise. -/
inductive PyError where
  | keyError
  | typeError
  | valueError
  | overflowError
deriving DecidableEq, Repr

/-! ## Enumerations -/

inductive TransferBackendKind where
  | regionRaw
deriving DecidableEq, Repr

def TransferBackendKind.value : TransferBackendKind → String
  | .regionRaw => "tt.region_raw"

inductive CacheAddressSpace where
  | pagedBlock
deriving DecidableEq, Repr

def CacheAddressSpace.value : CacheAddressSpace → String
  | .pagedBlock => "paged_block"

inductive MeshParallelRole where
  | tensorParallel
deriving DecidableEq, Repr

def MeshParallelRole.value : MeshParallelRole → String
  | .tensorParallel => "tp"

inductive TensorDistributionKind where
  | replicated
  | sharded
deriving DecidableEq, Repr

def TensorDistributionKind.value : TensorDistributionKind → String
  | .replicated => "replicated"
  | .sharded => "sharded"

inductive SplitPrefixPolicy where
  | disabled
  | exact_
deriving DecidableEq, Repr

def SplitPrefixPolicy.value : SplitPrefixPolicy → String
  | .disabled => "disabled"
  | .exact_ => "exact"

/-- The only type of host storage. -/
inductive DType where
  | uint8
deriving DecidableEq, Repr

def DType.value : DType → String
  | .uint8 => "uint8"

/-! ## Structures -/

/-- How a member is placed across chips. -/
structure TensorDistribution where
  kind : TensorDistributionKind
  meshRole : Option MeshParallelRole
  tensorAxis : Option Int
  valid : if kind = .replicated then meshRole = none ∧ tensorAxis = none
    else meshRole = some .tensorParallel ∧ ∃ axis, tensorAxis = some axis ∧ 0 ≤ axis
deriving DecidableEq

/-- A replicated tensor has no axis. -/
theorem TensorDistribution.no_axis :
    (none : Option MeshParallelRole) = none ∧ (none : Option Int) = none :=
  ⟨rfl, rfl⟩

def TensorDistribution.make (kind : TensorDistributionKind) (meshRole : Option MeshParallelRole)
    (tensorAxis : Option Int) : Except PyError TensorDistribution :=
  match kind, meshRole, tensorAxis with
  | .replicated, none, none => .ok ⟨.replicated, none, none, ⟨rfl, rfl⟩⟩
  | .replicated, _, _ => .error .valueError
  | .sharded, none, _ => .error .typeError
  | .sharded, some _, none => .error .valueError
  | .sharded, some .tensorParallel, some axis =>
    if natural : 0 ≤ axis then
      .ok ⟨.sharded, some .tensorParallel, some axis, ⟨rfl, axis, rfl, natural⟩⟩
    else .error .valueError

theorem TensorDistribution.make_eq_ok {kind : TensorDistributionKind}
    {meshRole : Option MeshParallelRole} {tensorAxis : Option Int}
    {distribution : TensorDistribution} :
    make kind meshRole tensorAxis = .ok distribution ↔ distribution.kind = kind ∧
      distribution.meshRole = meshRole ∧ distribution.tensorAxis = tensorAxis := by
  constructor
  · intro made
    unfold make at made
    split at made
    · cases made
      exact ⟨rfl, rfl, rfl⟩
    · cases made
    · cases made
    · cases made
    · split at made
      · cases made
        exact ⟨rfl, rfl, rfl⟩
      · cases made
  · rintro ⟨rfl, rfl, rfl⟩
    obtain ⟨kind, meshRole, tensorAxis, valid⟩ := distribution
    cases kind with
    | replicated =>
      obtain ⟨rfl, rfl⟩ : meshRole = none ∧ tensorAxis = none := valid
      rfl
    | sharded =>
      obtain ⟨rfl, axis, rfl, natural⟩ :
        meshRole = some .tensorParallel ∧ ∃ axis, tensorAxis = some axis ∧ 0 ≤ axis := valid
      exact dif_pos natural

theorem TensorDistribution.make_calm (kind : TensorDistributionKind)
    (meshRole : Option MeshParallelRole) (tensorAxis : Option Int) :
    Avoids .overflowError (make kind meshRole tensorAxis) := by
  unfold make
  split
  · exact nofun
  · exact nofun
  · exact nofun
  · exact nofun
  · split <;> exact nofun

/-- How the blocks of a cache are owned. -/
structure BlockDistribution where
  dataParallelSize : Int
  contextParallelSize : Int
  contextBlockInterleave : Int
  positive : 0 < dataParallelSize ∧ 0 < contextParallelSize ∧ 0 < contextBlockInterleave
deriving DecidableEq

def BlockDistribution.make (dataParallelSize contextParallelSize contextBlockInterleave : Int) :
    Except PyError BlockDistribution :=
  if positive : 0 < dataParallelSize ∧ 0 < contextParallelSize ∧ 0 < contextBlockInterleave then
    .ok ⟨dataParallelSize, contextParallelSize, contextBlockInterleave, positive⟩
  else .error .valueError

theorem BlockDistribution.make_eq_ok {dataParallelSize : Int} {contextParallelSize : Int} {contextBlockInterleave : Int}
    {distribution : BlockDistribution} :
    make dataParallelSize contextParallelSize contextBlockInterleave = .ok distribution ↔
      distribution.dataParallelSize = dataParallelSize ∧
      distribution.contextParallelSize = contextParallelSize ∧
      distribution.contextBlockInterleave = contextBlockInterleave := by
  constructor
  · intro made
    rw [make] at made
    split at made
    · cases made
      exact ⟨rfl, rfl, rfl⟩
    · cases made
  · rintro ⟨rfl, rfl, rfl⟩
    exact dif_pos distribution.positive

theorem BlockDistribution.make_calm (dataParallelSize : Int) (contextParallelSize : Int) (contextBlockInterleave : Int) :
    Avoids .overflowError (make dataParallelSize contextParallelSize contextBlockInterleave) := by
  rw [make]
  split <;> exact nofun

/-- What the backend is prepared with. -/
structure TransferPlan where
  backendKind : TransferBackendKind
  addressSpace : CacheAddressSpace
  blockDistribution : BlockDistribution
  tensorParallelSize : Int
  memberTensorDistributions : List TensorDistribution
  valid : 0 < tensorParallelSize ∧ memberTensorDistributions ≠ []
deriving DecidableEq

def TransferPlan.make (backendKind : TransferBackendKind) (addressSpace : CacheAddressSpace)
    (blockDistribution : BlockDistribution) (tensorParallelSize : Int)
    (memberTensorDistributions : List TensorDistribution) : Except PyError TransferPlan :=
  if valid : 0 < tensorParallelSize ∧ memberTensorDistributions ≠ [] then
    .ok ⟨backendKind, addressSpace, blockDistribution, tensorParallelSize,
      memberTensorDistributions, valid⟩
  else .error .valueError

theorem TransferPlan.make_eq_ok {backendKind : TransferBackendKind} {addressSpace : CacheAddressSpace} {blockDistribution : BlockDistribution} {tensorParallelSize : Int} {memberTensorDistributions : List TensorDistribution}
    {plan : TransferPlan} :
    make backendKind addressSpace blockDistribution tensorParallelSize memberTensorDistributions = .ok plan ↔
      plan.backendKind = backendKind ∧
      plan.addressSpace = addressSpace ∧
      plan.blockDistribution = blockDistribution ∧
      plan.tensorParallelSize = tensorParallelSize ∧
      plan.memberTensorDistributions = memberTensorDistributions := by
  constructor
  · intro made
    rw [make] at made
    split at made
    · cases made
      exact ⟨rfl, rfl, rfl, rfl, rfl⟩
    · cases made
  · rintro ⟨rfl, rfl, rfl, rfl, rfl⟩
    exact dif_pos plan.valid

theorem TransferPlan.make_calm (backendKind : TransferBackendKind) (addressSpace : CacheAddressSpace) (blockDistribution : BlockDistribution) (tensorParallelSize : Int) (memberTensorDistributions : List TensorDistribution) :
    Avoids .overflowError (make backendKind addressSpace blockDistribution tensorParallelSize memberTensorDistributions) := by
  rw [make]
  split <;> exact nofun

/-- A member of a memory object: the bytes of a token are those of its shape. -/
structure MemoryObjMemberSpec where
  memberId : String
  shapeTail : List Int
  dtype : DType
  bytesPerBlock : Int
  bytesPerToken : Int
  valid : memberId ≠ "" ∧ shapeTail ≠ [] ∧ (∀ dim ∈ shapeTail, 0 < dim) ∧ 0 < bytesPerBlock ∧
    0 < bytesPerToken ∧ shapeTail.prod = bytesPerToken
deriving DecidableEq

def MemoryObjMemberSpec.make (memberId : String) (shapeTail : List Int) (dtype : DType)
    (bytesPerBlock bytesPerToken : Int) : Except PyError MemoryObjMemberSpec :=
  if valid : memberId ≠ "" ∧ shapeTail ≠ [] ∧ (∀ dim ∈ shapeTail, 0 < dim) ∧ 0 < bytesPerBlock ∧
      0 < bytesPerToken ∧ shapeTail.prod = bytesPerToken then
    .ok ⟨memberId, shapeTail, dtype, bytesPerBlock, bytesPerToken, valid⟩
  else .error .valueError

theorem MemoryObjMemberSpec.make_eq_ok {memberId : String} {shapeTail : List Int} {dtype : DType} {bytesPerBlock : Int} {bytesPerToken : Int}
    {member : MemoryObjMemberSpec} :
    make memberId shapeTail dtype bytesPerBlock bytesPerToken = .ok member ↔
      member.memberId = memberId ∧
      member.shapeTail = shapeTail ∧
      member.dtype = dtype ∧
      member.bytesPerBlock = bytesPerBlock ∧
      member.bytesPerToken = bytesPerToken := by
  constructor
  · intro made
    rw [make] at made
    split at made
    · cases made
      exact ⟨rfl, rfl, rfl, rfl, rfl⟩
    · cases made
  · rintro ⟨rfl, rfl, rfl, rfl, rfl⟩
    exact dif_pos member.valid

theorem MemoryObjMemberSpec.make_calm (memberId : String) (shapeTail : List Int) (dtype : DType) (bytesPerBlock : Int) (bytesPerToken : Int) :
    Avoids .overflowError (make memberId shapeTail dtype bytesPerBlock bytesPerToken) := by
  rw [make]
  split <;> exact fun impossible => by cases impossible

/-- What the adapter and the scheduler round to. -/
structure TransferPolicy where
  allocationAlignment : Int
  prefixAlignment : Int
  splitPrefix : SplitPrefixPolicy
  positive : 0 < allocationAlignment ∧ 0 < prefixAlignment
deriving DecidableEq

def TransferPolicy.make (allocationAlignment prefixAlignment : Int)
    (splitPrefix : SplitPrefixPolicy) : Except PyError TransferPolicy :=
  if positive : 0 < allocationAlignment ∧ 0 < prefixAlignment then
    .ok ⟨allocationAlignment, prefixAlignment, splitPrefix, positive⟩
  else .error .valueError

theorem TransferPolicy.make_eq_ok {allocationAlignment : Int} {prefixAlignment : Int} {splitPrefix : SplitPrefixPolicy}
    {policy : TransferPolicy} :
    make allocationAlignment prefixAlignment splitPrefix = .ok policy ↔
      policy.allocationAlignment = allocationAlignment ∧
      policy.prefixAlignment = prefixAlignment ∧
      policy.splitPrefix = splitPrefix := by
  constructor
  · intro made
    rw [make] at made
    split at made
    · cases made
      exact ⟨rfl, rfl, rfl⟩
    · cases made
  · rintro ⟨rfl, rfl, rfl⟩
    exact dif_pos policy.positive

theorem TransferPolicy.make_calm (allocationAlignment : Int) (prefixAlignment : Int) (splitPrefix : SplitPrefixPolicy) :
    Avoids .overflowError (make allocationAlignment prefixAlignment splitPrefix) := by
  rw [make]
  split <;> exact nofun

/-- What a block of tokens looks like agrees across the parts of a profile. -/
structure Geometry (blockSize : Int) (memoryObjMembers : List MemoryObjMemberSpec)
    (plan : TransferPlan) (policy : TransferPolicy) : Prop where
  members : memoryObjMembers ≠ []
  block : 0 < blockSize
  allocation : policy.allocationAlignment = blockSize
  split : policy.prefixAlignment ≤ blockSize ∧ blockSize % policy.prefixAlignment = 0
  distinct : (memoryObjMembers.map (·.memberId)).Nodup
  covered : memoryObjMembers.length = plan.memberTensorDistributions.length
  strides : ∀ member ∈ memoryObjMembers, member.bytesPerBlock = blockSize * member.bytesPerToken
  interleave : plan.blockDistribution.contextBlockInterleave ≤ blockSize ∧
    blockSize % plan.blockDistribution.contextBlockInterleave = 0
  alone : plan.blockDistribution.contextParallelSize = 1 →
    plan.blockDistribution.contextBlockInterleave = 1

instance (blockSize : Int) (memoryObjMembers : List MemoryObjMemberSpec) (plan : TransferPlan)
    (policy : TransferPolicy) : Decidable (Geometry blockSize memoryObjMembers plan policy) :=
  decidable_of_iff (memoryObjMembers ≠ [] ∧ 0 < blockSize ∧
    policy.allocationAlignment = blockSize ∧
    (policy.prefixAlignment ≤ blockSize ∧ blockSize % policy.prefixAlignment = 0) ∧
    (memoryObjMembers.map (·.memberId)).Nodup ∧
    memoryObjMembers.length = plan.memberTensorDistributions.length ∧
    (∀ member ∈ memoryObjMembers, member.bytesPerBlock = blockSize * member.bytesPerToken) ∧
    (plan.blockDistribution.contextBlockInterleave ≤ blockSize ∧
      blockSize % plan.blockDistribution.contextBlockInterleave = 0) ∧
    (plan.blockDistribution.contextParallelSize = 1 →
      plan.blockDistribution.contextBlockInterleave = 1))
    ⟨fun ⟨a, b, c, d, e, f, g, h, i⟩ => ⟨a, b, c, d, e, f, g, h, i⟩,
      fun ⟨a, b, c, d, e, f, g, h, i⟩ => ⟨a, b, c, d, e, f, g, h, i⟩⟩

/-- All of a group but its identity. -/
structure TransferProfile where
  blockSize : Int
  memoryObjMembers : List MemoryObjMemberSpec
  plan : TransferPlan
  policy : TransferPolicy
  valid : Geometry blockSize memoryObjMembers plan policy
deriving DecidableEq

/-- The transfer of one layer. -/
structure TransferGroupDescriptor where
  groupId : String
  layerId : Int
  profile : TransferProfile
  valid : groupId ≠ "" ∧ 0 ≤ layerId
deriving DecidableEq

def TransferGroupDescriptor.make (groupId : String) (layerId blockSize : Int)
    (memoryObjMembers : List MemoryObjMemberSpec) (plan : TransferPlan) (policy : TransferPolicy) :
    Except PyError TransferGroupDescriptor :=
  if valid : (groupId ≠ "" ∧ 0 ≤ layerId) ∧ Geometry blockSize memoryObjMembers plan policy then
    .ok ⟨groupId, layerId, ⟨blockSize, memoryObjMembers, plan, policy, valid.2⟩, valid.1⟩
  else .error .valueError

theorem TransferGroupDescriptor.make_eq_ok {groupId : String} {layerId blockSize : Int}
    {memoryObjMembers : List MemoryObjMemberSpec} {plan : TransferPlan} {policy : TransferPolicy}
    {group : TransferGroupDescriptor} :
    make groupId layerId blockSize memoryObjMembers plan policy = .ok group ↔
      group.groupId = groupId ∧ group.layerId = layerId ∧ group.profile.blockSize = blockSize ∧
      group.profile.memoryObjMembers = memoryObjMembers ∧ group.profile.plan = plan ∧
      group.profile.policy = policy := by
  constructor
  · intro made
    rw [make] at made
    split at made
    · cases made
      exact ⟨rfl, rfl, rfl, rfl, rfl, rfl⟩
    · cases made
  · rintro ⟨rfl, rfl, rfl, rfl, rfl, rfl⟩
    exact dif_pos ⟨group.valid, group.profile.valid⟩

theorem TransferGroupDescriptor.make_calm (groupId : String) (layerId blockSize : Int)
    (memoryObjMembers : List MemoryObjMemberSpec) (plan : TransferPlan) (policy : TransferPolicy) :
    Avoids .overflowError (make groupId layerId blockSize memoryObjMembers plan policy) := by
  rw [make]
  split <;> exact nofun

/-- The group whose profile stands for that of all groups. -/
def singleGroupProfile (groups : List TransferGroupDescriptor) :
    Except PyError TransferGroupDescriptor :=
  match groups with
  | [] => .error .valueError
  | profile :: rest =>
    if ∀ group ∈ rest, group.profile = profile.profile then .ok profile else .error .valueError

end KvCache.Lmcache.Descriptor
