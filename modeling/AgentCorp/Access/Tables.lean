/-
  The tables behind roles, permissions and organizations, under their constraints.

  One commit of the services writes one `Write`. The database refuses it where it would break a
  unique column or a foreign key; the children of a deleted row go with it.

  * `valid_apply`: what a commit keeps.
-/
import AgentCorp.Lib.Constraints
import AgentCorp.Python.Effects

namespace AgentCorp.Access

open AgentCorp.Python

/-! ## Rows -/

structure User where
  fullName : String
  email : String
  passwordHash : String
  isActive : Bool := true
  isSuperuser : Bool := false
  deriving DecidableEq, Repr

structure Role where
  name : String
  description : Option String := none
  deriving DecidableEq, Repr

structure Permission where
  name : String
  description : Option String := none
  deriving DecidableEq, Repr

structure UserRole where
  userId : Nat
  roleId : Nat
  deriving DecidableEq, Repr

structure RolePermission where
  roleId : Nat
  permissionId : Nat
  deriving DecidableEq, Repr

structure Organization where
  name : String
  slug : String
  description : Option String := none
  isActive : Bool := true
  deriving DecidableEq, Repr

structure OrganizationMember where
  organizationId : Nat
  userId : Nat
  deriving DecidableEq, Repr

structure AccessTables where
  users : Table User
  roles : Table Role
  permissions : Table Permission
  userRoles : Table UserRole
  rolePermissions : Table RolePermission
  organizations : Table Organization
  organizationMembers : Table OrganizationMember

/-- The unique columns and the foreign keys. -/
structure AccessTables.Valid (t : AccessTables) : Prop where
  email : t.users.Unique User.email
  roleName : t.roles.Unique Role.name
  permissionName : t.permissions.Unique Permission.name
  userRole : t.userRoles.Unique fun row => row
  rolePermission : t.rolePermissions.Unique fun row => row
  organizationName : t.organizations.Unique Organization.name
  organizationSlug : t.organizations.Unique Organization.slug
  organizationMember : t.organizationMembers.Unique fun row => row
  roleUser : t.userRoles.Refers UserRole.userId t.users
  userRoleRole : t.userRoles.Refers UserRole.roleId t.roles
  permissionRole : t.rolePermissions.Refers RolePermission.roleId t.roles
  rolePermissionPermission :
    t.rolePermissions.Refers RolePermission.permissionId t.permissions
  memberUser : t.organizationMembers.Refers OrganizationMember.userId t.users
  memberOrganization :
    t.organizationMembers.Refers OrganizationMember.organizationId t.organizations

/-! ## Writes -/

/-- The columns of a role that an `UPDATE` sets. -/
structure RoleChanges where
  name : Option String := none
  description : Option String := none
  deriving DecidableEq, Repr

def RoleChanges.assign (changes : RoleChanges) (role : Role) : Role where
  name := changes.name.getD role.name
  description := changes.description <|> role.description

structure PermissionChanges where
  name : Option String := none
  description : Option String := none
  deriving DecidableEq, Repr

def PermissionChanges.assign (changes : PermissionChanges) (permission : Permission) :
    Permission where
  name := changes.name.getD permission.name
  description := changes.description <|> permission.description

/-- The columns of an organization that an `UPDATE` sets, each to a value or to `NULL`. -/
structure OrganizationChanges where
  name : Option (Option String) := none
  slug : Option (Option String) := none
  description : Option (Option String) := none
  isActive : Option (Option Bool) := none
  deriving DecidableEq, Repr

/-- A column that is not nullable is set to `NULL`. -/
def OrganizationChanges.nulls (changes : OrganizationChanges) : Bool :=
  changes.name == some none || changes.slug == some none || changes.isActive == some none

def OrganizationChanges.assign (changes : OrganizationChanges) (organization : Organization) :
    Organization where
  name := changes.name.join.getD organization.name
  slug := changes.slug.join.getD organization.slug
  description := changes.description.getD organization.description
  isActive := changes.isActive.join.getD organization.isActive

inductive Write where
  | insertUser (row : User)
  | insertRole (row : Role)
  | updateRole (id : Nat) (changes : RoleChanges)
  | deleteRole (id : Nat)
  | insertPermission (row : Permission)
  | updatePermission (id : Nat) (changes : PermissionChanges)
  | deletePermission (id : Nat)
  | insertUserRole (row : UserRole)
  | deleteUserRole (id : Nat)
  | insertRolePermission (row : RolePermission)
  | deleteRolePermission (id : Nat)
  | insertOrganization (row : Organization)
  | updateOrganization (id : Nat) (changes : OrganizationChanges)
  | deleteOrganization (id : Nat)
  | insertOrganizationMember (row : OrganizationMember)
  | deleteOrganizationMember (id : Nat)
  deriving DecidableEq, Repr

/-- Another row has the value that a column is set to. -/
def takenByOther {α : Type} (t : Table α) (column : α → String) (id : Nat)
    (value : Option String) : Bool :=
  match value with
  | none => false
  | some v => (t.delete id).any fun other => column other == v

/-- What the unique columns, the foreign keys and the columns without `NULL` let through. -/
def Write.allowed (t : AccessTables) : Write → Bool
  | insertUser row => !t.users.any fun other => other.email == row.email
  | insertRole row => !t.roles.any fun other => other.name == row.name
  | updateRole id changes => !takenByOther t.roles Role.name id changes.name
  | insertPermission row => !t.permissions.any fun other => other.name == row.name
  | updatePermission id changes => !takenByOther t.permissions Permission.name id changes.name
  | insertUserRole row =>
      !(t.userRoles.any (· == row)) && (t.users.get row.userId).isSome &&
        (t.roles.get row.roleId).isSome
  | insertRolePermission row =>
      !(t.rolePermissions.any (· == row)) && (t.roles.get row.roleId).isSome &&
        (t.permissions.get row.permissionId).isSome
  | insertOrganization row =>
      !(t.organizations.any fun other => other.name == row.name) &&
        !(t.organizations.any fun other => other.slug == row.slug)
  | updateOrganization id changes =>
      !changes.nulls &&
        !takenByOther t.organizations Organization.name id changes.name.join &&
        !takenByOther t.organizations Organization.slug id changes.slug.join
  | insertOrganizationMember row =>
      !(t.organizationMembers.any (· == row)) && (t.organizations.get row.organizationId).isSome &&
        (t.users.get row.userId).isSome
  | _ => true

def Write.apply (t : AccessTables) : Write → AccessTables
  | insertUser row => { t with users := t.users.insert row }
  | insertRole row => { t with roles := t.roles.insert row }
  | updateRole id changes => { t with roles := t.roles.modify id changes.assign }
  | deleteRole id =>
      { t with
        roles := t.roles.delete id
        userRoles := t.userRoles.deleteWhere fun row => row.roleId == id
        rolePermissions := t.rolePermissions.deleteWhere fun row => row.roleId == id }
  | insertPermission row => { t with permissions := t.permissions.insert row }
  | updatePermission id changes =>
      { t with permissions := t.permissions.modify id changes.assign }
  | deletePermission id =>
      { t with
        permissions := t.permissions.delete id
        rolePermissions := t.rolePermissions.deleteWhere fun row => row.permissionId == id }
  | insertUserRole row => { t with userRoles := t.userRoles.insert row }
  | deleteUserRole id => { t with userRoles := t.userRoles.delete id }
  | insertRolePermission row => { t with rolePermissions := t.rolePermissions.insert row }
  | deleteRolePermission id => { t with rolePermissions := t.rolePermissions.delete id }
  | insertOrganization row => { t with organizations := t.organizations.insert row }
  | updateOrganization id changes =>
      { t with organizations := t.organizations.modify id changes.assign }
  | deleteOrganization id =>
      { t with
        organizations := t.organizations.delete id
        organizationMembers :=
          t.organizationMembers.deleteWhere fun row => row.organizationId == id }
  | insertOrganizationMember row =>
      { t with organizationMembers := t.organizationMembers.insert row }
  | deleteOrganizationMember id =>
      { t with organizationMembers := t.organizationMembers.delete id }

/-- The id of the row that is written. -/
def Write.key (t : AccessTables) : Write → Nat
  | insertUser _ => t.users.next
  | insertRole _ => t.roles.next
  | insertPermission _ => t.permissions.next
  | insertUserRole _ => t.userRoles.next
  | insertRolePermission _ => t.rolePermissions.next
  | insertOrganization _ => t.organizations.next
  | insertOrganizationMember _ => t.organizationMembers.next
  | updateRole id _ | deleteRole id | updatePermission id _ | deletePermission id
  | deleteUserRole id | deleteRolePermission id | updateOrganization id _
  | deleteOrganization id | deleteOrganizationMember id => id

section Valid

variable {t : AccessTables}

theorem fresh_of_any {α κ : Type} [BEq κ] [LawfulBEq κ] {table : Table α} {column : α → κ} {a : α}
    (h : (!table.any fun other => column other == column a) = true) (id : Nat) (b : α)
    (hb : table.get id = some b) : column b ≠ column a := by
  rw [Bool.not_eq_true', Table.any_eq_false_iff] at h
  exact beq_eq_false_iff_ne.mp (h id b hb)

/-- The value that a commit gives to a column is nobody else's. -/
theorem unique_modify {α : Type} {table : Table α} {column : α → String} {id : Nat}
    {value : Option String} {f : α → α} (hunique : table.Unique column)
    (hf : ∀ a, column (f a) = value.getD (column a))
    (h : (!takenByOther table column id value) = true) :
    (table.modify id f).Unique column := by
  refine hunique.modify fun a ha id' b hne hb => ?_
  rw [hf]
  cases value with
  | none => exact fun heq => hne (hunique id' id b a hb ha heq)
  | some v =>
      rw [Bool.not_eq_true', takenByOther, Table.any_eq_false_iff] at h
      exact beq_eq_false_iff_ne.mp (h id' b ((Table.get_delete id id' b).mpr ⟨hb, hne⟩))

theorem valid_apply {w : Write} (h : t.Valid) (hallowed : w.allowed t = true) :
    (w.apply t).Valid := by
  cases w with
  | insertUser row =>
      exact { h with
        email := h.email.insert (fresh_of_any hallowed)
        roleUser := h.roleUser.insert_target row
        memberUser := h.memberUser.insert_target row }
  | insertRole row =>
      exact { h with
        roleName := h.roleName.insert (fresh_of_any hallowed)
        userRoleRole := h.userRoleRole.insert_target row
        permissionRole := h.permissionRole.insert_target row }
  | updateRole id changes =>
      exact { h with
        roleName := unique_modify h.roleName (fun _ => rfl) hallowed
        userRoleRole := h.userRoleRole.modify_target id _
        permissionRole := h.permissionRole.modify_target id _ }
  | deleteRole id =>
      exact { h with
        roleName := h.roleName.delete id
        userRole := h.userRole.deleteWhere _
        rolePermission := h.rolePermission.deleteWhere _
        roleUser := h.roleUser.deleteWhere _
        userRoleRole := h.userRoleRole.cascade id
        permissionRole := h.permissionRole.cascade id
        rolePermissionPermission := h.rolePermissionPermission.deleteWhere _ }
  | insertPermission row =>
      exact { h with
        permissionName := h.permissionName.insert (fresh_of_any hallowed)
        rolePermissionPermission := h.rolePermissionPermission.insert_target row }
  | updatePermission id changes =>
      exact { h with
        permissionName := unique_modify h.permissionName (fun _ => rfl) hallowed
        rolePermissionPermission := h.rolePermissionPermission.modify_target id _ }
  | deletePermission id =>
      exact { h with
        permissionName := h.permissionName.delete id
        rolePermission := h.rolePermission.deleteWhere _
        permissionRole := h.permissionRole.deleteWhere _
        rolePermissionPermission := h.rolePermissionPermission.cascade id }
  | insertUserRole row =>
      obtain ⟨⟨hfresh, huser⟩, hrole⟩ : ((!(t.userRoles.any (· == row))) = true ∧
          (t.users.get row.userId).isSome = true) ∧ (t.roles.get row.roleId).isSome = true := by
        simpa only [Write.allowed, Bool.and_eq_true] using hallowed
      exact { h with
        userRole := h.userRole.insert (fresh_of_any hfresh)
        roleUser := h.roleUser.insert (Option.isSome_iff_exists.mp huser)
        userRoleRole := h.userRoleRole.insert (Option.isSome_iff_exists.mp hrole) }
  | deleteUserRole id =>
      exact { h with
        userRole := h.userRole.delete id
        roleUser := h.roleUser.delete id
        userRoleRole := h.userRoleRole.delete id }
  | insertRolePermission row =>
      obtain ⟨⟨hfresh, hrole⟩, hperm⟩ : ((!(t.rolePermissions.any (· == row))) = true ∧
          (t.roles.get row.roleId).isSome = true) ∧
            (t.permissions.get row.permissionId).isSome = true := by
        simpa only [Write.allowed, Bool.and_eq_true] using hallowed
      exact { h with
        rolePermission := h.rolePermission.insert (fresh_of_any hfresh)
        permissionRole := h.permissionRole.insert (Option.isSome_iff_exists.mp hrole)
        rolePermissionPermission :=
          h.rolePermissionPermission.insert (Option.isSome_iff_exists.mp hperm) }
  | deleteRolePermission id =>
      exact { h with
        rolePermission := h.rolePermission.delete id
        permissionRole := h.permissionRole.delete id
        rolePermissionPermission := h.rolePermissionPermission.delete id }
  | insertOrganization row =>
      obtain ⟨hname, hslug⟩ : (!(t.organizations.any fun other => other.name == row.name)) = true ∧
          (!(t.organizations.any fun other => other.slug == row.slug)) = true := by
        simpa only [Write.allowed, Bool.and_eq_true] using hallowed
      exact { h with
        organizationName := h.organizationName.insert (fresh_of_any hname)
        organizationSlug := h.organizationSlug.insert (fresh_of_any hslug)
        memberOrganization := h.memberOrganization.insert_target row }
  | updateOrganization id changes =>
      obtain ⟨⟨-, hname⟩, hslug⟩ : ((!changes.nulls) = true ∧
          (!takenByOther t.organizations Organization.name id changes.name.join) = true) ∧
            (!takenByOther t.organizations Organization.slug id changes.slug.join) = true := by
        simpa only [Write.allowed, Bool.and_eq_true] using hallowed
      exact { h with
        organizationName := unique_modify h.organizationName (fun _ => rfl) hname
        organizationSlug := unique_modify h.organizationSlug (fun _ => rfl) hslug
        memberOrganization := h.memberOrganization.modify_target id _ }
  | deleteOrganization id =>
      exact { h with
        organizationName := h.organizationName.delete id
        organizationSlug := h.organizationSlug.delete id
        organizationMember := h.organizationMember.deleteWhere _
        memberUser := h.memberUser.deleteWhere _
        memberOrganization := h.memberOrganization.cascade id }
  | insertOrganizationMember row =>
      obtain ⟨⟨hfresh, horg⟩, huser⟩ : ((!(t.organizationMembers.any (· == row))) = true ∧
          (t.organizations.get row.organizationId).isSome = true) ∧
            (t.users.get row.userId).isSome = true := by
        simpa only [Write.allowed, Bool.and_eq_true] using hallowed
      exact { h with
        organizationMember := h.organizationMember.insert (fresh_of_any hfresh)
        memberUser := h.memberUser.insert (Option.isSome_iff_exists.mp huser)
        memberOrganization := h.memberOrganization.insert (Option.isSome_iff_exists.mp horg) }
  | deleteOrganizationMember id =>
      exact { h with
        organizationMember := h.organizationMember.delete id
        memberUser := h.memberUser.delete id
        memberOrganization := h.memberOrganization.delete id }

end Valid

end AgentCorp.Access
