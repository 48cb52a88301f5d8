import KvCache.Lmcache.DescriptorReaders

/-!
# The payload comes back

The peer rebuilds exactly the groups that were encoded, also from the text of their payload.
Of other payloads it accepts some that are no encoding: a layer named by a string, a float or
a truth value, and a profile that names a group of its own. Whatever it accepts is the same as
the encoding of what it returns where every field has its own type, and only there.
-/

namespace KvCache.Lmcache.Descriptor

open Json Raising

variable {φ : Type} (python : Python φ)

/-! ## Profiles -/

/-- The profile in a dictionary that has its fields. -/
def readProfile (json : Json φ) : Except PyError TransferProfile := do
  let blockSize ← python.int (← item json "block_size")
  let members ← readItems (readMember python) (← item json "memory_obj_members")
  let plan ← readPlan python (← item json "plan")
  let policy ← readPolicy python (← item json "policy")
  if valid : Geometry blockSize members plan policy then .ok ⟨blockSize, members, plan, policy, valid⟩
  else .error .valueError

/-- What a profile was read from. -/
theorem readProfile_eq_ok {json : Json φ} {profile : TransferProfile} :
    readProfile python json = .ok profile ↔
      (∃ size, item json "block_size" = .ok size ∧ python.int size = .ok profile.blockSize) ∧
      (∃ members, item json "memory_obj_members" = .ok members ∧
        readItems (readMember python) members = .ok profile.memoryObjMembers) ∧
      (∃ plan, item json "plan" = .ok plan ∧ readPlan python plan = .ok profile.plan) ∧
      ∃ policy, item json "policy" = .ok policy ∧ readPolicy python policy = .ok profile.policy := by
  constructor
  · intro accepted
    obtain ⟨size, sizeItem, accepted⟩ := bind_eq_ok.mp accepted
    obtain ⟨_, sizeRead, accepted⟩ := bind_eq_ok.mp accepted
    obtain ⟨members, membersItem, accepted⟩ := bind_eq_ok.mp accepted
    obtain ⟨_, membersRead, accepted⟩ := bind_eq_ok.mp accepted
    obtain ⟨plan, planItem, accepted⟩ := bind_eq_ok.mp accepted
    obtain ⟨_, planRead, accepted⟩ := bind_eq_ok.mp accepted
    obtain ⟨policy, policyItem, accepted⟩ := bind_eq_ok.mp accepted
    obtain ⟨_, policyRead, accepted⟩ := bind_eq_ok.mp accepted
    split at accepted
    · cases accepted
      exact ⟨⟨size, sizeItem, sizeRead⟩, ⟨members, membersItem, membersRead⟩,
        ⟨plan, planItem, planRead⟩, policy, policyItem, policyRead⟩
    · cases accepted
  · rintro ⟨⟨size, sizeItem, sizeRead⟩, ⟨members, membersItem, membersRead⟩,
      ⟨plan, planItem, planRead⟩, policy, policyItem, policyRead⟩
    rw [readProfile, sizeItem, membersItem, planItem, policyItem]
    simp only [bind, Except.bind, sizeRead, membersRead, planRead, policyRead]
    exact dif_pos profile.valid

/-- A profile comes back from its fields, whatever else there is. -/
theorem readProfile_back (profile : TransferProfile) (others : List (String × Json φ))
    (apart : ∀ key ∈ ["block_size", "memory_obj_members", "plan", "policy"],
      key ∉ others.map (·.1)) :
    readProfile python (.obj (profile.members ++ others)) = .ok profile := by
  simp only [List.forall_mem_cons] at apart
  obtain ⟨size, members, plan, policy, -⟩ := apart
  refine (readProfile_eq_ok python).mpr ⟨⟨.int profile.blockSize, ?_, rfl⟩,
    ⟨_, ?_, (reads_items (reads_member python)).back _⟩, ⟨_, ?_, (reads_plan python).back _⟩,
    _, ?_, (reads_policy python).back _⟩
  · simp [item, TransferProfile.members, get?, get?_eq_none size]
  · simp [item, TransferProfile.members, get?, get?_eq_none members]
  · simp [item, TransferProfile.members, get?, get?_eq_none plan]
  · simp [item, TransferProfile.members, get?, get?_eq_none policy]

/-- A profile reads only its own fields. -/
theorem readProfile_congr {json other : Json φ} (same : ∀ key ∈
    ["block_size", "memory_obj_members", "plan", "policy"], item json key = item other key) :
    readProfile python json = readProfile python other := by
  simp only [List.forall_mem_cons] at same
  obtain ⟨size, members, plan, policy, -⟩ := same
  rw [readProfile, readProfile, size, members, plan, policy]

/-- Exact fields, and none of an identity. -/
def ExactProfile (json : Json φ) : Prop :=
  At json "group_id" (fun _ => False) ∧ At json "layer_id" (fun _ => False) ∧
    At json "block_size" (ExactInt python) ∧
    At json "memory_obj_members" (ExactItems (ExactMember python)) ∧
    At json "plan" (ExactPlan python) ∧ At json "policy" (ExactPolicy python)

theorem same_profile {json : Json φ} {profile : TransferProfile}
    (checked : requireExactKeys json ["block_size", "memory_obj_members", "plan", "policy"] = .ok ⟨⟩)
    (accepted : readProfile python json = .ok profile) :
    Same (.obj profile.members) json ↔ At json "block_size" (ExactInt python) ∧
      At json "memory_obj_members" (ExactItems (ExactMember python)) ∧
      At json "plan" (ExactPlan python) ∧ At json "policy" (ExactPolicy python) := by
  obtain ⟨⟨size, sizeItem, sizeRead⟩, ⟨members, membersItem, membersRead⟩,
    ⟨plan, planItem, planRead⟩, policy, policyItem, policyRead⟩ :=
    (readProfile_eq_ok python).mp accepted
  rw [TransferProfile.members, same_fields (by simp) checked sizeItem]
  simp [at_iff sizeItem, at_iff membersItem, at_iff planItem, at_iff policyItem,
    (reads_int python).same sizeRead, (reads_items (reads_member python)).same membersRead,
    (reads_plan python).same planRead, (reads_policy python).same policyRead]

/-! ## Groups -/

/-- What a group was read from. -/
theorem groupFromDict_eq_ok {json : Json φ} {group : TransferGroupDescriptor} :
    groupFromDict python json = .ok group ↔ requireExactKeys json groupKeys = .ok ⟨⟩ ∧
      (∃ name, item json "group_id" = .ok name ∧ python.str name = group.groupId) ∧
      (∃ layer, item json "layer_id" = .ok layer ∧ python.int layer = .ok group.layerId) ∧
      readProfile python json = .ok group.profile := by
  constructor
  · intro accepted
    obtain ⟨_, checked, accepted⟩ := bind_eq_ok.mp accepted
    obtain ⟨plan, planItem, accepted⟩ := bind_eq_ok.mp accepted
    obtain ⟨_, planKeys, accepted⟩ := bind_eq_ok.mp accepted
    obtain ⟨block, blockItem, accepted⟩ := bind_eq_ok.mp accepted
    obtain ⟨_, blockKeys, accepted⟩ := bind_eq_ok.mp accepted
    obtain ⟨policy, policyItem, accepted⟩ := bind_eq_ok.mp accepted
    obtain ⟨_, policyKeys, accepted⟩ := bind_eq_ok.mp accepted
    obtain ⟨listed, listedItem, accepted⟩ := bind_eq_ok.mp accepted
    obtain ⟨items, visited, accepted⟩ := bind_eq_ok.mp accepted
    obtain ⟨_, memberKeys, accepted⟩ := bind_eq_ok.mp accepted
    obtain ⟨id, idItem, accepted⟩ := bind_eq_ok.mp accepted
    obtain ⟨layer, layerItem, accepted⟩ := bind_eq_ok.mp accepted
    obtain ⟨_, layerRead, accepted⟩ := bind_eq_ok.mp accepted
    obtain ⟨size, sizeItem, accepted⟩ := bind_eq_ok.mp accepted
    obtain ⟨_, sizeRead, accepted⟩ := bind_eq_ok.mp accepted
    obtain ⟨members, membersRead, accepted⟩ := bind_eq_ok.mp accepted
    obtain ⟨_, planRead, accepted⟩ := bind_eq_ok.mp accepted
    obtain ⟨_, policyRead, accepted⟩ := bind_eq_ok.mp accepted
    obtain ⟨named, rfl, rfl, rfl, rfl, rfl⟩ := TransferGroupDescriptor.make_eq_ok.mp accepted
    have both := (List.forall₂_and_left _ _).mpr
      ⟨forM_eq_ok.mp memberKeys, mapM_eq_ok.mp membersRead⟩
    have members : readItems (readMember python) listed = .ok group.profile.memoryObjMembers :=
      bind_eq_ok.mpr ⟨items, visited, mapM_eq_ok.mpr <|
        both.imp fun _ _ ⟨keys, read⟩ => bind_eq_ok.mpr ⟨⟨⟩, keys, read⟩⟩
    have plan : readPlan python plan = .ok group.profile.plan :=
      bind_eq_ok.mpr ⟨⟨⟩, planKeys, bind_eq_ok.mpr ⟨block, blockItem,
        bind_eq_ok.mpr ⟨⟨⟩, blockKeys, planRead⟩⟩⟩
    have policy : readPolicy python policy = .ok group.profile.policy :=
      bind_eq_ok.mpr ⟨⟨⟩, policyKeys, policyRead⟩
    exact ⟨checked, ⟨id, idItem, named.symm⟩, ⟨layer, layerItem, layerRead⟩,
      (readProfile_eq_ok python).mpr ⟨⟨size, sizeItem, sizeRead⟩, ⟨listed, listedItem, members⟩,
        ⟨_, planItem, plan⟩, _, policyItem, policy⟩⟩
  · rintro ⟨checked, ⟨id, idItem, named⟩, ⟨layer, layerItem, layerRead⟩, profile⟩
    obtain ⟨⟨size, sizeItem, sizeRead⟩, ⟨listed, listedItem, members⟩, ⟨plan, planItem, planRead⟩,
      policy, policyItem, policyRead⟩ := (readProfile_eq_ok python).mp profile
    obtain ⟨items, visited, members⟩ := bind_eq_ok.mp members
    obtain ⟨_, planKeys, planRead⟩ := bind_eq_ok.mp planRead
    obtain ⟨block, blockItem, planRead⟩ := bind_eq_ok.mp planRead
    obtain ⟨_, blockKeys, planRead⟩ := bind_eq_ok.mp planRead
    obtain ⟨_, policyKeys, policyRead⟩ := bind_eq_ok.mp policyRead
    have both : List.Forall₂ (fun item member => requireExactKeys item memberKeys = .ok ⟨⟩ ∧
        memberFromDict python item = .ok member) items group.profile.memoryObjMembers :=
      (mapM_eq_ok.mp members).imp fun _ _ read => by
        obtain ⟨_, keys, read⟩ := bind_eq_ok.mp read
        exact ⟨keys, read⟩
    obtain ⟨memberKeys, membersRead⟩ := (List.forall₂_and_left _ _).mp both
    refine bind_eq_ok.mpr ⟨⟨⟩, checked, bind_eq_ok.mpr ⟨plan, planItem, ?_⟩⟩
    refine bind_eq_ok.mpr ⟨⟨⟩, planKeys, bind_eq_ok.mpr ⟨block, blockItem, ?_⟩⟩
    refine bind_eq_ok.mpr ⟨⟨⟩, blockKeys, bind_eq_ok.mpr ⟨policy, policyItem, ?_⟩⟩
    refine bind_eq_ok.mpr ⟨⟨⟩, policyKeys, bind_eq_ok.mpr ⟨listed, listedItem, ?_⟩⟩
    refine bind_eq_ok.mpr ⟨items, visited, bind_eq_ok.mpr ⟨⟨⟩, forM_eq_ok.mpr memberKeys, ?_⟩⟩
    refine bind_eq_ok.mpr ⟨id, idItem, bind_eq_ok.mpr ⟨layer, layerItem, ?_⟩⟩
    refine bind_eq_ok.mpr ⟨_, layerRead, bind_eq_ok.mpr ⟨size, sizeItem, ?_⟩⟩
    refine bind_eq_ok.mpr ⟨_, sizeRead, bind_eq_ok.mpr ⟨_, mapM_eq_ok.mpr membersRead, ?_⟩⟩
    refine bind_eq_ok.mpr ⟨_, planRead, bind_eq_ok.mpr ⟨_, policyRead, ?_⟩⟩
    exact TransferGroupDescriptor.make_eq_ok.mpr ⟨named.symm, rfl, rfl, rfl, rfl, rfl⟩

theorem groupFromDict_calm {json : Json φ} (layer : At json "layer_id" (ExactInt python))
    (size : At json "block_size" (ExactInt python))
    (members : At json "memory_obj_members" (ExactItems (ExactMember python)))
    (plan : At json "plan" (ExactPlan python)) (policy : At json "policy" (ExactPolicy python)) :
    Avoids .overflowError (groupFromDict python json) := by
  refine (requireExactKeys_calm _ _).bind fun _ _ => ?_
  refine (item_calm _ _).bind fun planJson planItem => ?_
  refine (requireExactKeys_calm _ _).bind fun _ planChecked => ?_
  refine (item_calm _ _).bind fun block blockItem => ?_
  refine (requireExactKeys_calm _ _).bind fun _ blockChecked => ?_
  refine (item_calm _ _).bind fun policyJson policyItem => ?_
  refine (requireExactKeys_calm _ _).bind fun _ policyChecked => ?_
  refine (item_calm _ _).bind fun listed listedItem => ?_
  refine (iterate_calm _).bind fun items visited => ?_
  refine (Avoids.forM fun _ _ => requireExactKeys_calm _ _).bind fun _ membersChecked => ?_
  refine (item_calm _ _).bind fun _ _ => ?_
  refine (item_calm _ _).bind fun found here =>
    ((reads_int python).calm (layer found here)).bind fun _ _ => ?_
  refine (item_calm _ _).bind fun found here =>
    ((reads_int python).calm (size found here)).bind fun _ _ => ?_
  have members := (reads_items (reads_member python)).calm (members listed listedItem)
  have plan := (reads_plan python).calm (plan planJson planItem)
  have policy := (reads_policy python).calm (policy policyJson policyItem)
  rw [readItems, visited] at members
  rw [readPlan, planChecked, blockItem] at plan
  rw [readPolicy, policyChecked] at policy
  have unchecked : items.mapM (memberFromDict python) = items.mapM (readMember python) := by
    refine mapM_congr fun item member => ?_
    rw [readMember, forM_eq_ok.mp membersChecked item member]
    rfl
  rw [unchecked]
  refine Avoids.bind members fun _ _ => Avoids.bind ?_ fun _ _ => Avoids.bind policy fun _ _ => ?_
  · change Avoids _ (requireExactKeys block blockDistributionKeys >>= fun _ => _) at plan
    rwa [blockChecked] at plan
  · exact TransferGroupDescriptor.make_calm _ _ _ _ _ _

/-- A group is read from its profile and any identity that Python reads as its own. -/
theorem entryOf_back (group : TransferGroupDescriptor) {name layer : Json φ}
    (named : python.str name = group.groupId) (counted : python.int layer = .ok group.layerId) :
    entryOf python group.profile.members (.obj [("group_id", name), ("layer_id", layer)]) =
      .ok group := by
  have identity : requireExactKeys (.obj [("group_id", name), ("layer_id", layer)])
      ["group_id", "layer_id"] = .ok ⟨⟩ := requireExactKeys_obj.mpr fun _ => Iff.rfl
  have checked : requireExactKeys (.obj (group.profile.members ++
      [("group_id", name), ("layer_id", layer)])) groupKeys = .ok ⟨⟩ :=
    requireExactKeys_obj.mpr fun key => by
      simp only [TransferProfile.members, groupKeys, List.map_cons, List.map_append, List.map_nil,
        List.mem_cons, List.mem_append, List.not_mem_nil, or_false]
      rw [or_comm, or_assoc]
  refine bind_eq_ok.mpr ⟨⟨⟩, identity, bind_eq_ok.mpr ⟨name, ?_, bind_eq_ok.mpr ⟨layer, ?_,
    (groupFromDict_eq_ok python).mpr ⟨checked, ⟨name, ?_, named⟩, ⟨layer, ?_, counted⟩,
      readProfile_back python group.profile _ (by simp)⟩⟩⟩⟩
  · simp [item, get?]
  · simp [item, get?]
  · simp [item, get?, TransferProfile.members]
  · simp [item, get?, TransferProfile.members]

/-! ## Entries -/

/-- The identity of a group. -/
def readIdentity (json : Json φ) : Except PyError (String × Int) := do
  requireExactKeys json ["group_id", "layer_id"]
  let name := python.str (← item json "group_id")
  let layer ← python.int (← item json "layer_id")
  return (name, layer)

def ExactIdentity (json : Json φ) : Prop :=
  At json "group_id" ExactStr ∧ At json "layer_id" (ExactInt python)

theorem reads_identity : Reads (readIdentity python)
    (fun identity => .obj [("group_id", .str identity.1), ("layer_id", .int identity.2)])
    (ExactIdentity python) where
  back identity := by
    have checked : requireExactKeys (φ := φ)
        (.obj [("group_id", .str identity.1), ("layer_id", .int identity.2)])
        ["group_id", "layer_id"] = .ok ⟨⟩ := requireExactKeys_obj.mpr fun _ => Iff.rfl
    rw [readIdentity, checked]
    simp [item, get?, bind, Except.bind, pure, Except.pure, Python.str, (reads_int python).back]
  same {json identity} accepted := by
    obtain ⟨_, checked, accepted⟩ := bind_eq_ok.mp accepted
    obtain ⟨name, nameItem, accepted⟩ := bind_eq_ok.mp accepted
    obtain ⟨layer, layerItem, accepted⟩ := bind_eq_ok.mp accepted
    obtain ⟨_, layerRead, accepted⟩ := bind_eq_ok.mp accepted
    cases accepted
    rw [same_fields (by simp) checked nameItem, ExactIdentity]
    simp [at_iff nameItem, at_iff layerItem, (reads_str python).same rfl,
      (reads_int python).same layerRead]
  calm {json} exact_ := by
    refine (requireExactKeys_calm _ _).bind fun _ _ => ?_
    refine (item_calm _ _).bind fun _ _ => (item_calm _ _).bind fun layer here => ?_
    exact ((reads_int python).calm (exact_.2 layer here)).bind
      fun _ _ impossible => by cases impossible

/-- Other members do not hide an item. -/
theorem item_append {key : String} (members : List (String × Json φ))
    {others : List (String × Json φ)} (apart : key ∉ others.map (·.1)) :
    item (.obj (members ++ others)) key = item (.obj members) key := by
  rw [item, item, get?_append, get?_eq_none apart, Option.none_or]

/-- What an entry was read from. -/
theorem entryOf_ok {body : List (String × Json φ)} {json : Json φ}
    {group : TransferGroupDescriptor} (accepted : entryOf python body json = .ok group) :
    readIdentity python json = .ok (group.groupId, group.layerId) ∧
      readProfile python (.obj body) = .ok group.profile ∧
      ∀ key, key ∈ body.map (·.1) ∨ key = "group_id" ∨ key = "layer_id" ↔ key ∈ groupKeys := by
  obtain ⟨_, identity, accepted⟩ := bind_eq_ok.mp accepted
  obtain ⟨name, nameItem, accepted⟩ := bind_eq_ok.mp accepted
  obtain ⟨layer, layerItem, accepted⟩ := bind_eq_ok.mp accepted
  obtain ⟨checked, ⟨_, nameHere, named⟩, ⟨_, layerHere, counted⟩, profile⟩ :=
    (groupFromDict_eq_ok python).mp accepted
  simp [item, get?_append, get?] at nameHere layerHere
  subst nameHere layerHere
  refine ⟨?_, ?_, fun key => ?_⟩
  · refine bind_eq_ok.mpr ⟨⟨⟩, identity, bind_eq_ok.mpr ⟨name, nameItem, ?_⟩⟩
    refine bind_eq_ok.mpr ⟨layer, layerItem, bind_eq_ok.mpr ⟨_, counted, ?_⟩⟩
    rw [named]
    rfl
  · rw [← profile]
    refine readProfile_congr python fun key member => (item_append body ?_).symm
    revert key
    simp
  · have keys := requireExactKeys_obj.mp checked key
    simpa using keys

theorem entryOf_calm {body : List (String × Json φ)} {json : Json φ}
    (profile : ExactProfile python (.obj body)) (identity : ExactIdentity python json) :
    Avoids .overflowError (entryOf python body json) := by
  obtain ⟨-, -, size, members, plan, policy⟩ := profile
  refine (requireExactKeys_calm _ _).bind fun _ _ => ?_
  refine (item_calm _ _).bind fun _ _ => (item_calm _ _).bind fun layer here => ?_
  have layer := identity.2 layer here
  refine groupFromDict_calm python ?_ ?_ ?_ ?_ ?_
  · intro found there
    simp [item, get?_append, get?] at there
    exact there ▸ layer
  all_goals
    rw [At, item_append body (by simp)]
    assumption

/-- In what was read from a profile the fields are exact where it is the same as its encoding. -/
theorem same_body {body : List (String × Json φ)} {profile : TransferProfile}
    (keys : ∀ key, key ∈ body.map (·.1) ∨ key = "group_id" ∨ key = "layer_id" ↔ key ∈ groupKeys)
    (accepted : readProfile python (.obj body) = .ok profile) :
    Same (.obj profile.members) (.obj body) ↔ ExactProfile python (.obj body) := by
  by_cases unnamed : "group_id" ∉ body.map (·.1) ∧ "layer_id" ∉ body.map (·.1)
  · have absent : ∀ key, key ∉ body.map (·.1) → At (.obj body) key (fun _ => False) := by
      intro key absent found here
      obtain ⟨_, shape, there⟩ := item_eq_ok.mp here
      cases shape
      rw [get?_eq_none absent] at there
      cases there
    have checked : requireExactKeys (.obj body)
        ["block_size", "memory_obj_members", "plan", "policy"] = .ok ⟨⟩ :=
      requireExactKeys_obj.mpr fun key => by
        have known := keys key
        simp only [groupKeys, List.mem_cons, List.not_mem_nil, or_false] at known ⊢
        constructor
        · intro member
          have named : key ≠ "group_id" ∧ key ≠ "layer_id" :=
            ⟨fun same => unnamed.1 (same ▸ member), fun same => unnamed.2 (same ▸ member)⟩
          obtain same | same | others := known.mp (Or.inl member)
          · exact absurd same named.1
          · exact absurd same named.2
          · exact others
        · intro member
          have named : key ≠ "group_id" ∧ key ≠ "layer_id" := by
            rcases member with rfl | rfl | rfl | rfl <;> decide
          obtain inside | same | same := known.mpr (.inr (.inr member))
          · exact inside
          · exact absurd same named.1
          · exact absurd same named.2
    rw [same_profile python checked accepted, ExactProfile]
    exact ⟨fun exact_ => ⟨absent _ unnamed.1, absent _ unnamed.2, exact_⟩,
      fun exact_ => exact_.2.2⟩
  · have named : ∀ key, key = "group_id" ∨ key = "layer_id" → key ∈ body.map (·.1) →
        ¬ Same (.obj profile.members) (.obj body) ∧ ¬ At (.obj body) key (fun _ => False) := by
      intro key identity member
      obtain ⟨found, there⟩ := Option.isSome_iff_exists.mp (get?_isSome.mpr member)
      refine ⟨fun same => ?_, fun none => none found (item_eq_ok.mpr ⟨body, rfl, there⟩)⟩
      have equal := same_obj_iff.mp same key
      rw [there, get?_eq_none] at equal
      · cases equal
      · rcases identity with rfl | rfl <;> simp [TransferProfile.members]
    rw [not_and_or, not_not, not_not] at unnamed
    rcases unnamed with member | member
    · obtain ⟨differ, there⟩ := named _ (Or.inl rfl) member
      exact iff_of_false differ fun exact_ => there exact_.1
    · obtain ⟨differ, there⟩ := named _ (Or.inr rfl) member
      exact iff_of_false differ fun exact_ => there exact_.2.1

/-! ## Payloads -/

theorem entriesOf_eq_ok {payload : Json φ} {entries : List TransferGroupDescriptor} :
    entriesOf python payload = .ok entries ↔
      requireExactKeys payload ["fingerprint", "profile", "groups"] = .ok ⟨⟩ ∧
      ∃ body groups items, item payload "profile" = .ok (.obj body) ∧
        item payload "groups" = .ok groups ∧ iterate groups = .ok items ∧
        List.Forall₂ (fun item group => entryOf python body item = .ok group) items entries := by
  constructor
  · intro accepted
    obtain ⟨_, checked, accepted⟩ := bind_eq_ok.mp accepted
    obtain ⟨profile, profileItem, accepted⟩ := bind_eq_ok.mp accepted
    split at accepted
    · next body =>
      obtain ⟨groups, groupsItem, accepted⟩ := bind_eq_ok.mp accepted
      obtain ⟨items, visited, accepted⟩ := bind_eq_ok.mp accepted
      exact ⟨checked, body, groups, items, profileItem, groupsItem, visited, mapM_eq_ok.mp accepted⟩
    · cases accepted
  · rintro ⟨checked, body, groups, items, profileItem, groupsItem, visited, accepted⟩
    refine bind_eq_ok.mpr ⟨⟨⟩, checked, bind_eq_ok.mpr ⟨_, profileItem, ?_⟩⟩
    exact bind_eq_ok.mpr ⟨groups, groupsItem, bind_eq_ok.mpr ⟨items, visited,
      mapM_eq_ok.mpr accepted⟩⟩

/-- Every field of a payload has its own type, and the profile names no group. -/
def Exact (payload : Json φ) : Prop :=
  At payload "profile" (fun | .obj body => ExactProfile python (.obj body) | _ => True) ∧
    At payload "groups" (ExactItems (ExactIdentity python))

theorem entriesOf_calm {payload : Json φ} (exact_ : Exact python payload) :
    Avoids .overflowError (entriesOf python payload) := by
  refine (requireExactKeys_calm _ _).bind fun _ _ => ?_
  refine (item_calm _ _).bind fun profile here => ?_
  split
  · next body =>
    have fields : ExactProfile python (.obj body) := exact_.1 _ here
    refine (item_calm _ _).bind fun groups there => (iterate_calm _).bind fun items visited => ?_
    have identities := exact_.2 _ there
    cases groups with
    | arr listed =>
      cases visited
      exact Avoids.mapM fun item member => entryOf_calm python fields (identities item member)
    | obj | str => exact identities.elim
    | null | bool | int | float => cases visited
  · exact nofun

section Payload

variable (sha256 : List Char → String) (floats : FloatText φ)

/-- What a fingerprint covers. -/
def contentOf (profile : TransferProfile) (groups : List TransferGroupDescriptor) :
    List (String × Json φ) :=
  [("profile", .obj profile.members), ("groups", .arr (groups.map fun group => .obj group.identity))]

/-- Groups that share a profile are encoded. -/
theorem descriptorPayload_eq {profile : TransferProfile} {groups : List TransferGroupDescriptor}
    (nonempty : groups ≠ []) (shared : ∀ group ∈ groups, group.profile = profile) :
    descriptorPayload sha256 floats groups = .ok (.obj (("fingerprint",
      .str (fingerprint sha256 floats (.obj (contentOf profile groups)))) ::
        contentOf profile groups)) := by
  obtain ⟨first, rest, rfl⟩ := List.exists_cons_of_ne_nil nonempty
  have uniform : singleGroupProfile (first :: rest) = .ok first := by
    refine if_pos fun group member => ?_
    rw [shared group (.tail _ member), shared first List.mem_cons_self]
  have body : pop "layer_id" (pop "group_id" first.members) = profile.members (φ := φ) := by
    rw [← shared first List.mem_cons_self]
    simp [pop, TransferGroupDescriptor.members, TransferGroupDescriptor.identity,
      TransferProfile.members]
  rw [descriptorPayload, uniform]
  change Except.ok _ = _
  rw [body]
  rfl

theorem excepted_eq_ok {α : Type} {outcome : Except PyError α} {value : α} :
    excepted outcome = .ok value ↔ outcome = .ok value := by
  cases outcome with
  | ok found => exact Iff.rfl
  | error error => cases error <;> exact ⟨nofun, nofun⟩

theorem transferGroupsFromPayload_eq_ok {payload : Json φ}
    {entries : List TransferGroupDescriptor} :
    transferGroupsFromPayload sha256 floats python payload = .ok entries ↔
      entriesOf python payload = .ok entries ∧
      (∃ profile groups, item payload "profile" = .ok profile ∧
        item payload "groups" = .ok groups ∧ carries payload (fingerprint sha256 floats
          (.obj [("profile", profile), ("groups", groups)])) = true) ∧
      entries ≠ [] ∧ (entries.map (·.layerId)).Nodup ∧ (entries.map (·.groupId)).Nodup := by
  constructor
  · intro accepted
    obtain ⟨found, read, accepted⟩ := bind_eq_ok.mp accepted
    obtain ⟨profile, profileItem, accepted⟩ := bind_eq_ok.mp accepted
    obtain ⟨groups, groupsItem, accepted⟩ := bind_eq_ok.mp accepted
    dsimp only at accepted
    split at accepted
    · cases accepted
    · next carried =>
      split at accepted
      · cases accepted
      · next unique =>
        cases accepted
        rw [not_or, not_or, not_not, not_not] at unique
        exact ⟨excepted_eq_ok.mp read, ⟨profile, groups, profileItem, groupsItem,
          Bool.not_eq_false _ ▸ carried⟩, unique⟩
  · rintro ⟨read, ⟨profile, groups, profileItem, groupsItem, carried⟩, nonempty, layers, names⟩
    refine bind_eq_ok.mpr ⟨entries, excepted_eq_ok.mpr read, bind_eq_ok.mpr ⟨profile, profileItem, ?_⟩⟩
    refine bind_eq_ok.mpr ⟨groups, groupsItem, ?_⟩
    rw [if_neg (by simp [carried]), if_neg (by simp [nonempty, layers, names])]

/-- A payload of exact fields is refused with `ValueError` alone. -/
theorem transferGroupsFromPayload_error {payload : Json φ} {error : PyError}
    (exact_ : Exact python payload)
    (refused : transferGroupsFromPayload sha256 floats python payload = .error error) :
    error = .valueError := by
  rw [transferGroupsFromPayload] at refused
  cases read : entriesOf python payload with
  | error other =>
    rw [read] at refused
    cases other with
    | overflowError => exact absurd read (entriesOf_calm python exact_)
    | keyError | typeError | valueError => exact (Except.error.inj refused).symm
  | ok entries =>
    obtain ⟨_, body, groups, _, profileItem, groupsItem, _⟩ := (entriesOf_eq_ok python).mp read
    rw [read] at refused
    simp only [excepted, bind, Except.bind, profileItem, groupsItem] at refused
    split at refused
    · exact (Except.error.inj refused).symm
    · split at refused
      · exact (Except.error.inj refused).symm
      · cases refused

theorem carries_eq_true {payload : Json φ} {digest : String} :
    carries payload digest = true ↔ item payload "fingerprint" = .ok (.str digest) := by
  rw [carries]
  split
  · next text here => simp [here]
  · next other =>
    refine iff_of_false nofun fun here => other digest here

theorem fingerprint_congr {content other : Json φ} (same : Same content other) :
    fingerprint sha256 floats content = fingerprint sha256 floats other := by
  rw [fingerprint, fingerprint, show canonical content = canonical other from same]

/-- Different contents have different fingerprints. -/
theorem fingerprint_injective (injective : Function.Injective sha256) {content other : Json φ}
    (same : fingerprint sha256 floats content = fingerprint sha256 floats other) :
    Same content other :=
  spell_injective floats (by simp) (injective same)

/-- An accepted payload is the same as its encoding where its fields are exact. -/
theorem same_payload {payload : Json φ} {groups : List TransferGroupDescriptor}
    (accepted : transferGroupsFromPayload sha256 floats python payload = .ok groups) :
    (∃ again, descriptorPayload sha256 floats groups = .ok again ∧ Same again payload) ↔
      Exact python payload := by
  obtain ⟨read, ⟨profile, listed, profileItem, listedItem, carried⟩, nonempty, -, -⟩ :=
    (transferGroupsFromPayload_eq_ok python sha256 floats).mp accepted
  obtain ⟨checked, body, found, items, bodyItem, foundItem, visited, entries⟩ :=
    (entriesOf_eq_ok python).mp read
  obtain rfl : profile = .obj body := Except.ok.inj (profileItem.symm.trans bodyItem)
  obtain rfl : listed = found := Except.ok.inj (listedItem.symm.trans foundItem)
  obtain ⟨first, rest, rfl⟩ := List.exists_cons_of_ne_nil nonempty
  have facts := entries.flip.imp fun group item entry =>
    And.intro (entryOf_ok python entry).2 (entryOf_ok python entry).1
  obtain ⟨each, identities⟩ := (List.forall₂_and_left _ _).mp facts
  obtain ⟨bodyRead, keys⟩ := each first List.mem_cons_self
  have shared : ∀ group ∈ first :: rest, group.profile = first.profile := fun group member =>
    Except.ok.inj ((each group member).1.symm.trans bodyRead)
  have identitiesRead : readItems (readIdentity python) listed =
      .ok ((first :: rest).map fun group => (group.groupId, group.layerId)) :=
    bind_eq_ok.mpr ⟨items, visited, mapM_eq_ok.mpr (List.forall₂_map_right_iff.mpr identities.flip)⟩
  have sameGroups := (reads_items (reads_identity python)).same identitiesRead
  have sameBody := same_body python keys bodyRead
  have digest := (carries_eq_true).mp carried
  have payloadKeys : requireExactKeys payload ["fingerprint", "profile", "groups"] = .ok ⟨⟩ := checked
  rw [List.map_map] at sameGroups
  have exactly : Exact python payload ↔ ExactProfile python (.obj body) ∧
      ExactItems (ExactIdentity python) listed := and_congr (at_iff bodyItem) (at_iff listedItem)
  rw [descriptorPayload_eq sha256 floats nonempty shared, exactly, ← sameBody, ← sameGroups]
  constructor
  · rintro ⟨again, encoded, same⟩
    cases encoded
    rw [same_fields (by simp [contentOf]) payloadKeys digest] at same
    simp only [contentOf, List.forall_mem_cons, at_iff bodyItem, at_iff listedItem] at same
    exact ⟨same.2.1, same.2.2.1⟩
  · rintro ⟨profiles, groups⟩
    refine ⟨_, rfl, (same_fields (by simp [contentOf]) payloadKeys digest).mpr ?_⟩
    have content : Same (.obj (contentOf first.profile (first :: rest)))
        (.obj [("profile", .obj body), ("groups", listed)]) := by
      rw [contentOf, same_obj_of_keys ["profile", "groups"] (fun _ => Iff.rfl)
        fun _ => Iff.rfl]
      simp only [List.map_cons, List.forall_mem_cons, get?]
      simpa using ⟨profiles, groups⟩
    simp only [contentOf, List.forall_mem_cons, at_iff bodyItem, at_iff listedItem, at_iff digest]
    refine ⟨?_, profiles, groups, fun _ member => by cases member⟩
    rw [same_str_iff]
    exact congrArg Json.str (fingerprint_congr sha256 floats content).symm

/-- Groups are rebuilt from a profile and identities that Python reads as theirs. -/
theorem rebuilds {profile : TransferProfile} {groups : List TransferGroupDescriptor}
    (nonempty : groups ≠ []) (shared : ∀ group ∈ groups, group.profile = profile)
    (layers : (groups.map (·.layerId)).Nodup) (names : (groups.map (·.groupId)).Nodup)
    {identities : List (Json φ)} (read : List.Forall₂ (fun json group => ∃ name layer,
      json = .obj [("group_id", name), ("layer_id", layer)] ∧
        python.str name = group.groupId ∧ python.int layer = .ok group.layerId) identities groups) :
    transferGroupsFromPayload sha256 floats python (.obj [("fingerprint",
        .str (fingerprint sha256 floats (.obj [("profile", .obj profile.members),
          ("groups", .arr identities)]))),
      ("profile", .obj profile.members), ("groups", .arr identities)]) = .ok groups := by
  have facts := (List.forall₂_and_left _ _).mpr ⟨shared, read.flip⟩
  have entries : List.Forall₂ (fun json group => entryOf python profile.members json = .ok group)
      identities groups := by
    refine (facts.imp fun group json fact => ?_).flip
    obtain ⟨rfl, name, layer, rfl, named, counted⟩ := fact
    exact entryOf_back python group named counted
  refine (transferGroupsFromPayload_eq_ok python sha256 floats).mpr
    ⟨(entriesOf_eq_ok python).mpr ⟨requireExactKeys_obj.mpr fun _ => Iff.rfl,
      profile.members, .arr identities, identities, ?_, ?_, rfl, entries⟩,
      ⟨.obj profile.members, .arr identities, ?_, ?_, carries_eq_true.mpr ?_⟩,
      nonempty, layers, names⟩
  all_goals simp [item, get?]

/-- What decoding promises about a payload: it accepts no other than the encoding of what it
returns, and refuses with `ValueError` alone. -/
def Faithful (payload : Json φ) : Prop :=
  (∀ groups, transferGroupsFromPayload sha256 floats python payload = .ok groups →
    ∃ again, descriptorPayload sha256 floats groups = .ok again ∧ Same again payload) ∧
  ∀ error, transferGroupsFromPayload sha256 floats python payload = .error error →
    error = .valueError

theorem faithful_iff {payload : Json φ} {groups : List TransferGroupDescriptor}
    (accepted : transferGroupsFromPayload sha256 floats python payload = .ok groups) :
    Faithful python sha256 floats payload ↔ Exact python payload := by
  rw [← same_payload python sha256 floats accepted]
  constructor
  · intro faithful
    exact faithful.1 groups accepted
  · intro same
    refine ⟨fun found read => ?_, fun error refused => ?_⟩
    · exact Except.ok.inj (accepted.symm.trans read) ▸ same
    · cases accepted.symm.trans refused

end Payload

/-! ## A layer that is named by a string -/

/-- No floats. -/
def noFloats : FloatText Empty where
  spell := nofun
  read _ := none
  word := nofun
  fractional := nofun
  unnamed := nofun
  read_spell := nofun

/-- Python without floats, as far as the digit zero is concerned. -/
def zeroOnly : Python Empty where
  intOfFloat := nofun
  intOfStr text := if text = "0" then some 0 else none
  strOf _ := "None"

/-- One layer of one replicated member. -/
def sampleGroup : TransferGroupDescriptor where
  groupId := "layer0"
  layerId := 0
  profile :=
    { blockSize := 32
      memoryObjMembers := [⟨"kv", [1, 64], .uint8, 2048, 64, by simp⟩]
      plan := ⟨.regionRaw, .pagedBlock, ⟨1, 1, 1, by decide⟩, 1,
        [⟨.replicated, none, none, TensorDistribution.no_axis⟩], ⟨by decide, List.cons_ne_nil _ _⟩⟩
      policy := ⟨32, 32, .exact_, by decide⟩
      valid := ⟨by simp, by simp, rfl, by simp, by simp, rfl, by simp, by simp, fun _ => rfl⟩ }
  valid := by simp

/-- The groups of a layer `"0"`. -/
def textLayer : List (Json Empty) :=
  [.obj [("group_id", .str "layer0"), ("layer_id", .str "0")]]

/-- The payload with the fingerprint of its contents. -/
def textPayload : Json Empty :=
  .obj [("fingerprint", .str (fingerprint String.ofList noFloats
      (.obj [("profile", .obj sampleGroup.profile.members), ("groups", .arr textLayer)]))),
    ("profile", .obj sampleGroup.profile.members), ("groups", .arr textLayer)]

theorem textLayer_read : List.Forall₂ (fun json group => ∃ name layer,
    json = .obj [("group_id", name), ("layer_id", layer)] ∧
      zeroOnly.str name = group.groupId ∧ zeroOnly.int layer = .ok group.layerId)
    textLayer [sampleGroup] := by
  refine List.Forall₂.cons ⟨.str "layer0", .str "0", rfl, rfl, ?_⟩ List.Forall₂.nil
  simp [Python.int, zeroOnly, sampleGroup]

theorem textPayload_accepted :
    transferGroupsFromPayload String.ofList noFloats zeroOnly textPayload = .ok [sampleGroup] :=
  rebuilds zeroOnly String.ofList noFloats (List.cons_ne_nil _ _)
    (List.forall_mem_singleton.mpr rfl) (List.nodup_singleton _) (List.nodup_singleton _)
    textLayer_read

end KvCache.Lmcache.Descriptor
