import Mathlib.Data.List.Dedup
import Mathlib.Data.List.Nodup
import LlmPort.Backend.NodeControl.Model
import LlmPort.Transition.Query
import LlmPort.Transition.Run

/-!
# Roles and permissions

The tables of `db/models/rbac.py` and `db/models/groups.py`, the operations of their access objects,
and the two queries that ask what a user may do: the check of one permission and the listing of all.
-/

namespace LlmPort.Backend.Rbac

open Transition

abbrev Uuid := BitVec 128

structure Role where
  id : Uuid
  name : String
  description : Option String
  isBuiltin : Bool
  deriving DecidableEq

structure Permission where
  id : Uuid
  resource : String
  action : String
  deriving DecidableEq

structure Group where
  id : Uuid
  name : String
  description : Option String
  deriving DecidableEq

structure RolePermission where
  roleId : Uuid
  permissionId : Uuid
  deriving DecidableEq

structure UserRole where
  userId : Uuid
  roleId : Uuid
  deriving DecidableEq

structure GroupRole where
  groupId : Uuid
  roleId : Uuid
  deriving DecidableEq

structure UserGroup where
  userId : Uuid
  groupId : Uuid
  deriving DecidableEq

structure RbacTables where
  users : List Uuid
  roles : List Role
  permissions : List Permission
  groups : List Group
  rolePermissions : List RolePermission
  userRoles : List UserRole
  groupRoles : List GroupRole
  userGroups : List UserGroup

namespace RbacTables

variable (t : RbacTables)

/-- The primary keys and the other unique columns. -/
def Unique : Prop :=
  (t.roles.map (·.id)).Nodup ∧ (t.roles.map (·.name)).Nodup ∧
    (t.permissions.map (·.id)).Nodup ∧ (t.permissions.map fun p => (p.resource, p.action)).Nodup ∧
    (t.groups.map (·.id)).Nodup ∧ (t.groups.map (·.name)).Nodup ∧ t.rolePermissions.Nodup ∧
    t.userRoles.Nodup ∧ t.groupRoles.Nodup ∧ t.userGroups.Nodup

/-- The foreign keys. -/
def References : Prop :=
  (∀ x ∈ t.rolePermissions, x.roleId ∈ t.roles.map (·.id) ∧
      x.permissionId ∈ t.permissions.map (·.id)) ∧
    (∀ x ∈ t.userRoles, x.userId ∈ t.users ∧ x.roleId ∈ t.roles.map (·.id)) ∧
    (∀ x ∈ t.groupRoles, x.groupId ∈ t.groups.map (·.id) ∧ x.roleId ∈ t.roles.map (·.id)) ∧
    ∀ x ∈ t.userGroups, x.userId ∈ t.users ∧ x.groupId ∈ t.groups.map (·.id)

/-- What the database admits. -/
def Admitted : Prop := t.Unique ∧ t.References

instance : Decidable t.Admitted := by
  unfold Admitted Unique References
  infer_instance

end RbacTables

structure RbacDb where
  tables : RbacTables
  admitted : tables.Admitted

/-! ## Operations -/

/-- The operations of `RbacDAO` and `GroupDAO`, with the ids that they draw. -/
inductive RbacOp where
  | createRole (newId : Uuid) (name : String) (description : Option String)
    (permissionIds : List Uuid)
  | updateRole (roleId : Uuid) (name description : Option String)
    (permissionIds : Option (List Uuid))
  | deleteRole (roleId : Uuid)
  | assignRole (userId roleId : Uuid)
  | removeRole (userId roleId : Uuid)
  | setUserRoles (userId : Uuid) (roleIds : List Uuid)
  | createGroup (newId : Uuid) (name : String) (description : Option String) (roleIds : List Uuid)
  | updateGroup (groupId : Uuid) (name description : Option String) (roleIds : Option (List Uuid))
  | deleteGroup (groupId : Uuid)
  | addMembers (groupId : Uuid) (userIds : List Uuid)
  | removeMember (groupId userId : Uuid)
  | setGroupMembers (groupId : Uuid) (userIds : List Uuid)

namespace RbacTables

variable (t : RbacTables)

/-- The rows are inserted with `on_conflict_do_nothing`: those that are there are left alone. -/
def createRole (newId : Uuid) (name : String) (description : Option String)
    (permissionIds : List Uuid) : RbacTables :=
  { t with
    roles := t.roles ++ [⟨newId, name, description, false⟩]
    rolePermissions := permissionIds.map (⟨newId, ·⟩) ∪ t.rolePermissions }

def updateRole (roleId : Uuid) (name description : Option String)
    (permissionIds : Option (List Uuid)) : RbacTables :=
  match t.roles.find? (·.id = roleId) with
  | none => t
  | some _ =>
    { t with
      roles := t.roles.map fun role =>
        if role.id = roleId then
          { role with
            name := name.getD role.name
            description := description.elim role.description some }
        else role
      rolePermissions := match permissionIds with
        | none => t.rolePermissions
        | some permissionIds =>
          permissionIds.map (⟨roleId, ·⟩) ∪ t.rolePermissions.filter (·.roleId ≠ roleId) }

/-- Groups lose the role by the cascade of the foreign key. -/
def deleteRole (roleId : Uuid) : RbacTables :=
  match t.roles.find? (·.id = roleId) with
  | none => t
  | some _ =>
    { t with
      userRoles := t.userRoles.filter (·.roleId ≠ roleId)
      rolePermissions := t.rolePermissions.filter (·.roleId ≠ roleId)
      roles := t.roles.filter (·.id ≠ roleId)
      groupRoles := t.groupRoles.filter (·.roleId ≠ roleId) }

def assignRole (userId roleId : Uuid) : RbacTables :=
  { t with userRoles := [⟨userId, roleId⟩] ∪ t.userRoles }

def removeRole (userId roleId : Uuid) : RbacTables :=
  { t with userRoles := t.userRoles.filter fun x => !(x.userId = userId && x.roleId = roleId) }

def setUserRoles (userId : Uuid) (roleIds : List Uuid) : RbacTables :=
  { t with
    userRoles := t.userRoles.filter (·.userId ≠ userId) ++ roleIds.dedup.map (⟨userId, ·⟩) }

def createGroup (newId : Uuid) (name : String) (description : Option String)
    (roleIds : List Uuid) : RbacTables :=
  { t with
    groups := t.groups ++ [⟨newId, name, description⟩]
    groupRoles := roleIds.map (⟨newId, ·⟩) ∪ t.groupRoles }

def updateGroup (groupId : Uuid) (name description : Option String)
    (roleIds : Option (List Uuid)) : RbacTables :=
  match t.groups.find? (·.id = groupId) with
  | none => t
  | some _ =>
    { t with
      groups := t.groups.map fun group =>
        if group.id = groupId then
          { group with
            name := name.getD group.name
            description := description.elim group.description some }
        else group
      groupRoles := match roleIds with
        | none => t.groupRoles
        | some roleIds =>
          roleIds.map (⟨groupId, ·⟩) ∪ t.groupRoles.filter (·.groupId ≠ groupId) }

def deleteGroup (groupId : Uuid) : RbacTables :=
  match t.groups.find? (·.id = groupId) with
  | none => t
  | some _ =>
    { t with
      userGroups := t.userGroups.filter (·.groupId ≠ groupId)
      groupRoles := t.groupRoles.filter (·.groupId ≠ groupId)
      groups := t.groups.filter (·.id ≠ groupId) }

def addMembers (groupId : Uuid) (userIds : List Uuid) : RbacTables :=
  { t with userGroups := userIds.map (⟨·, groupId⟩) ∪ t.userGroups }

def removeMember (groupId userId : Uuid) : RbacTables :=
  { t with userGroups := t.userGroups.filter fun x => !(x.groupId = groupId && x.userId = userId) }

def setGroupMembers (groupId : Uuid) (userIds : List Uuid) : RbacTables :=
  { t with
    userGroups := userIds.dedup.map (⟨·, groupId⟩) ∪ t.userGroups.filter (·.groupId ≠ groupId) }

def apply : RbacOp → RbacTables
  | .createRole newId name description permissionIds =>
    t.createRole newId name description permissionIds
  | .updateRole roleId name description permissionIds =>
    t.updateRole roleId name description permissionIds
  | .deleteRole roleId => t.deleteRole roleId
  | .assignRole userId roleId => t.assignRole userId roleId
  | .removeRole userId roleId => t.removeRole userId roleId
  | .setUserRoles userId roleIds => t.setUserRoles userId roleIds
  | .createGroup newId name description roleIds => t.createGroup newId name description roleIds
  | .updateGroup groupId name description roleIds => t.updateGroup groupId name description roleIds
  | .deleteGroup groupId => t.deleteGroup groupId
  | .addMembers groupId userIds => t.addMembers groupId userIds
  | .removeMember groupId userId => t.removeMember groupId userId
  | .setGroupMembers groupId userIds => t.setGroupMembers groupId userIds

/-! ## Queries -/

def permissionRows : List (Permission × RolePermission) :=
  join t.permissions t.rolePermissions fun p rp => rp.permissionId = p.id

/-- The rows of the direct query, before its `where`. -/
def directRows : List ((Permission × RolePermission) × UserRole) :=
  join t.permissionRows t.userRoles fun row ur => ur.roleId = row.2.roleId

/-- The rows of the query through groups, before its `where`. -/
def groupRows : List (((Permission × RolePermission) × GroupRole) × UserGroup) :=
  join (join t.permissionRows t.groupRoles fun row gr => gr.roleId = row.2.roleId) t.userGroups
    fun row ug => ug.groupId = row.2.groupId

def getUserPermissions (userId : Uuid) : List Permission :=
  let direct := (t.directRows.filter (·.2.userId = userId)).map (·.1.1.id)
  let group := (t.groupRows.filter (·.2.userId = userId)).map (·.1.1.1.id)
  let combinedIds := (direct ++ group).dedup
  t.permissions.filter (·.id ∈ combinedIds)

def hasPermission (userId : Uuid) (resource action : String) : Except QueryError Bool := do
  let direct ← scalarOneOrNone <| List.take 1 <|
    (t.directRows.filter fun row =>
      row.2.userId = userId && row.1.1.resource = resource && row.1.1.action = action).map
      (·.1.1.id)
  if direct.isSome then
    return true
  let group ← scalarOneOrNone <| List.take 1 <|
    (t.groupRows.filter fun row =>
      row.2.userId = userId && row.1.1.1.resource = resource &&
        row.1.1.1.action = action).map (·.1.1.1.id)
  return group.isSome

end RbacTables

namespace RbacDb

/-- The transaction of an operation; one that breaks a constraint is undone. -/
def step (db : RbacDb) (op : RbacOp) : RbacDb :=
  if h : (db.tables.apply op).Admitted then ⟨db.tables.apply op, h⟩ else db

end RbacDb

/-! ## What a user may do -/

namespace RbacTables

variable {t : RbacTables} {userId roleId : Uuid} {resource action : String} {p : Permission}

/-- The user has the role, directly or through a group. -/
def HoldsRole (t : RbacTables) (userId roleId : Uuid) : Prop :=
  ⟨userId, roleId⟩ ∈ t.userRoles ∨
    ∃ groupId, ⟨groupId, roleId⟩ ∈ t.groupRoles ∧ ⟨userId, groupId⟩ ∈ t.userGroups

/-- A role of the user has the permission. -/
def Grants (t : RbacTables) (userId : Uuid) (p : Permission) : Prop :=
  p ∈ t.permissions ∧ ∃ roleId, ⟨roleId, p.id⟩ ∈ t.rolePermissions ∧ t.HoldsRole userId roleId

theorem mem_permissionRows {rp : RolePermission} : (p, rp) ∈ t.permissionRows ↔
    p ∈ t.permissions ∧ rp ∈ t.rolePermissions ∧ rp.permissionId = p.id := by
  rw [permissionRows, mem_join, decide_eq_true_iff]

theorem exists_directRows : (∃ row ∈ t.directRows, row.2.userId = userId ∧ row.1.1 = p) ↔
    p ∈ t.permissions ∧ ∃ roleId, ⟨roleId, p.id⟩ ∈ t.rolePermissions ∧
      ⟨userId, roleId⟩ ∈ t.userRoles := by
  constructor
  · rintro ⟨⟨⟨p, rp⟩, ur⟩, hrow, rfl, rfl⟩
    rw [directRows, mem_join, mem_permissionRows, decide_eq_true_iff] at hrow
    obtain ⟨⟨hp, hrp, hid⟩, hur, hrole⟩ := hrow
    refine ⟨hp, rp.roleId, ?_, ?_⟩
    · rwa [← hid]
    · rwa [← hrole]
  · rintro ⟨hp, roleId, hrp, hur⟩
    refine ⟨((p, ⟨roleId, p.id⟩), ⟨userId, roleId⟩), ?_, rfl, rfl⟩
    rw [directRows, mem_join, mem_permissionRows, decide_eq_true_iff]
    exact ⟨⟨hp, hrp, rfl⟩, hur, rfl⟩

theorem exists_groupRows : (∃ row ∈ t.groupRows, row.2.userId = userId ∧ row.1.1.1 = p) ↔
    p ∈ t.permissions ∧ ∃ roleId, ⟨roleId, p.id⟩ ∈ t.rolePermissions ∧
      ∃ groupId, ⟨groupId, roleId⟩ ∈ t.groupRoles ∧ ⟨userId, groupId⟩ ∈ t.userGroups := by
  constructor
  · rintro ⟨⟨⟨⟨p, rp⟩, gr⟩, ug⟩, hrow, rfl, rfl⟩
    rw [groupRows, mem_join, mem_join, mem_permissionRows, decide_eq_true_iff,
      decide_eq_true_iff] at hrow
    obtain ⟨⟨⟨hp, hrp, hid⟩, hgr, hrole⟩, hug, hgroup⟩ := hrow
    refine ⟨hp, rp.roleId, ?_, gr.groupId, ?_, ?_⟩
    · rwa [← hid]
    · rwa [← hrole]
    · rwa [← hgroup]
  · rintro ⟨hp, roleId, hrp, groupId, hgr, hug⟩
    refine ⟨(((p, ⟨roleId, p.id⟩), ⟨groupId, roleId⟩), ⟨userId, groupId⟩), ?_, rfl, rfl⟩
    rw [groupRows, mem_join, mem_join, mem_permissionRows, decide_eq_true_iff, decide_eq_true_iff]
    exact ⟨⟨⟨hp, hrp, rfl⟩, hgr, rfl⟩, hug, rfl⟩

/-- What one of the two queries finds is what is granted. -/
theorem grants_iff : t.Grants userId p ↔
    (∃ row ∈ t.directRows, row.2.userId = userId ∧ row.1.1 = p) ∨
      ∃ row ∈ t.groupRows, row.2.userId = userId ∧ row.1.1.1 = p := by
  rw [exists_directRows, exists_groupRows, Grants, ← and_or_left, ← exists_or]
  exact and_congr_right fun _ => exists_congr fun roleId => and_or_left

theorem mem_getUserPermissions (h : t.Admitted) :
    p ∈ t.getUserPermissions userId ↔ t.Grants userId p := by
  have hids : (t.permissions.map (·.id)).Nodup := h.1.2.2.1
  have hrow {q : Permission} (hq : t.Grants userId q) (hp : p ∈ t.permissions)
      (hid : q.id = p.id) : t.Grants userId p :=
    List.inj_on_of_nodup_map hids hq.1 hp hid ▸ hq
  rw [getUserPermissions, List.mem_filter, decide_eq_true_iff, List.mem_dedup, List.mem_append,
    List.mem_map, List.mem_map]
  constructor
  · rintro ⟨hp, ⟨row, hmem, hid⟩ | ⟨row, hmem, hid⟩⟩
    · rw [List.mem_filter, decide_eq_true_iff] at hmem
      exact hrow (grants_iff.2 (.inl ⟨row, hmem.1, hmem.2, rfl⟩)) hp hid
    · rw [List.mem_filter, decide_eq_true_iff] at hmem
      exact hrow (grants_iff.2 (.inr ⟨row, hmem.1, hmem.2, rfl⟩)) hp hid
  · intro hp
    refine ⟨hp.1, (grants_iff.1 hp).imp ?_ ?_⟩
    · rintro ⟨row, hmem, huser, rfl⟩
      exact ⟨row, List.mem_filter.2 ⟨hmem, decide_eq_true huser⟩, rfl⟩
    · rintro ⟨row, hmem, huser, rfl⟩
      exact ⟨row, List.mem_filter.2 ⟨hmem, decide_eq_true huser⟩, rfl⟩

theorem isSome_head?_map_iff {α β : Type*} (l : List α) (f : α → β) :
    (l.map f).head?.isSome = true ↔ ∃ x, x ∈ l := by
  cases l with
  | nil => simp
  | cons x l => exact iff_of_true rfl ⟨x, List.mem_cons_self⟩

/-- Nobody has a role that was deleted, in a group or outside. -/
theorem not_holdsRole_deleteRole (h : t.Admitted) :
    ¬ (t.deleteRole roleId).HoldsRole userId roleId := by
  obtain ⟨-, -, huser, hgroup, -⟩ := h
  rw [deleteRole]
  split
  next hnone =>
    have hrole : roleId ∉ t.roles.map (·.id) := by
      intro hmem
      obtain ⟨role, hrole, rfl⟩ := List.mem_map.1 hmem
      exact List.find?_eq_none.1 hnone role hrole (decide_eq_true rfl)
    rintro (hmem | ⟨groupId, hmem, -⟩)
    · exact hrole (huser _ hmem).2
    · exact hrole (hgroup _ hmem).2
  next =>
    rintro (hmem | ⟨groupId, hmem, -⟩)
    · exact of_decide_eq_true (List.mem_filter.1 hmem).2 rfl
    · exact of_decide_eq_true (List.mem_filter.1 hmem).2 rfl

/-- The check does not raise, and finds what is granted. -/
theorem hasPermission_spec (t : RbacTables) (userId : Uuid) (resource action : String) :
    ∃ b, t.hasPermission userId resource action = .ok b ∧
      (b = true ↔ ∃ p, t.Grants userId p ∧ p.resource = resource ∧ p.action = action) := by
  let direct := t.directRows.filter fun row =>
    row.2.userId = userId && row.1.1.resource = resource && row.1.1.action = action
  let group := t.groupRows.filter fun row =>
    row.2.userId = userId && row.1.1.1.resource = resource && row.1.1.1.action = action
  have hcheck : t.hasPermission userId resource action =
      .ok ((direct.map (·.1.1.id)).head?.isSome || (group.map (·.1.1.1.id)).head?.isSome) := by
    rw [hasPermission, scalarOneOrNone_take_one, scalarOneOrNone_take_one]
    change (if (direct.map (·.1.1.id)).head?.isSome = true then Except.ok true
      else Except.ok (group.map (·.1.1.1.id)).head?.isSome) = _
    cases (direct.map (·.1.1.id)).head?.isSome <;> rfl
  refine ⟨_, hcheck, ?_⟩
  rw [Bool.or_eq_true, isSome_head?_map_iff, isSome_head?_map_iff]
  constructor
  · rintro (⟨row, hrow⟩ | ⟨row, hrow⟩)
    · simp only [direct, List.mem_filter, Bool.and_eq_true, decide_eq_true_iff] at hrow
      obtain ⟨hmem, ⟨huser, hresource⟩, haction⟩ := hrow
      exact ⟨row.1.1, grants_iff.2 (.inl ⟨row, hmem, huser, rfl⟩), hresource, haction⟩
    · simp only [group, List.mem_filter, Bool.and_eq_true, decide_eq_true_iff] at hrow
      obtain ⟨hmem, ⟨huser, hresource⟩, haction⟩ := hrow
      exact ⟨row.1.1.1, grants_iff.2 (.inr ⟨row, hmem, huser, rfl⟩), hresource, haction⟩
  · rintro ⟨p, hp, rfl, rfl⟩
    refine (grants_iff.1 hp).imp ?_ ?_
    · rintro ⟨row, hmem, huser, rfl⟩
      exact ⟨row, List.mem_filter.2 ⟨hmem, by simp [huser]⟩⟩
    · rintro ⟨row, hmem, huser, rfl⟩
      exact ⟨row, List.mem_filter.2 ⟨hmem, by simp [huser]⟩⟩

end RbacTables

/-- After any operations the check and the listing agree. -/
theorem hasPermission_iff_mem (db : RbacDb) (ops : List RbacOp) (userId : Uuid)
    (resource action : String) :
    (run RbacDb.step db ops).tables.hasPermission userId resource action = .ok true ↔
      (resource, action) ∈ ((run RbacDb.step db ops).tables.getUserPermissions userId).map
        fun p => (p.resource, p.action) := by
  generalize run RbacDb.step db ops = db
  obtain ⟨b, hcheck, hb⟩ := db.tables.hasPermission_spec userId resource action
  have hok : (.ok b : Except QueryError Bool) = .ok true ↔ b = true :=
    ⟨Except.ok.inj, congrArg Except.ok⟩
  rw [hcheck, hok, hb, List.mem_map]
  refine exists_congr fun p => ?_
  rw [RbacTables.mem_getUserPermissions db.admitted, Prod.mk.injEq]

end LlmPort.Backend.Rbac
