/-
  The services for roles, permissions, organizations and users.

  A request is a program over the shared database: every query and every commit is a step of its
  own, so other requests may come between any two of them. A commit writes the columns whose value
  differs from what the request has loaded. What the constraints refuse raises `IntegrityError`
  and changes nothing.
-/
import AgentCorp.Access.Tables
import AgentCorp.Lib.RaisingPrograms
import AgentCorp.Python.Text

namespace AgentCorp.Access

open AgentCorp.Python
open Interleaving

/-! ## The database -/

/-- The stored rows, and what the last commit of each request came to: the id of the row it wrote,
    or `none` if it was refused. -/
structure AccessDb where
  tables : AccessTables
  valid : tables.Valid
  outcome : Nat → Option Nat

structure Commit where
  request : Nat
  write : Write
  deriving DecidableEq, Repr

def Commit.apply (c : Commit) (db : AccessDb) : AccessDb :=
  if h : c.write.allowed db.tables = true then
    { tables := c.write.apply db.tables
      valid := valid_apply db.valid h
      outcome := Function.update db.outcome c.request (some (c.write.key db.tables)) }
  else { db with outcome := Function.update db.outcome c.request none }

theorem Commit.tables_apply (c : Commit) (db : AccessDb) :
    (c.apply db).tables =
      if c.write.allowed db.tables then c.write.apply db.tables else db.tables := by
  unfold Commit.apply
  split <;> rfl

/-- What a request runs. -/
abbrev Session (α : Type) := Raising AccessDb Commit Exn α

def query {α : Type} (f : AccessTables → α) : Session α :=
  Raising.get fun db => f db.tables

/-- `db.commit()`, with the id of the row that is written. -/
def commit (request : Nat) (w : Write) : Session Nat := do
  Raising.emit ⟨request, w⟩
  match ← Raising.get fun db => db.outcome request with
  | some id => return id
  | none => throw (.other "IntegrityError" "")

/-- A column of an `UPDATE`: `none` if the value is the loaded one. -/
def changed {α : Type} [DecidableEq α] (loaded : α) (assigned : Option α) : Option α :=
  assigned.filter (· ≠ loaded)

/-! ## Requests -/

structure RoleCreate where
  name : String
  description : Option String := none
  deriving DecidableEq, Repr

structure RoleUpdate where
  name : Option String := none
  description : Option String := none
  deriving DecidableEq, Repr

structure PermissionCreate where
  name : String
  description : Option String := none
  deriving DecidableEq, Repr

structure PermissionUpdate where
  name : Option String := none
  description : Option String := none
  deriving DecidableEq, Repr

structure OrganizationCreate where
  name : String
  slug : String
  description : Option String := none
  deriving DecidableEq, Repr

/-- The fields that are set, `None` included. -/
structure OrganizationUpdate where
  name : Option (Option String) := none
  slug : Option (Option String) := none
  description : Option (Option String) := none
  isActive : Option (Option Bool) := none
  deriving DecidableEq, Repr

structure OrganizationMemberCreate where
  organizationId : Nat
  userId : Nat
  deriving DecidableEq, Repr

structure UserCreate where
  fullName : String
  email : String
  password : String
  deriving DecidableEq, Repr

structure RegisterRequest where
  fullName : String
  email : String
  password : String
  deriving DecidableEq, Repr

variable (request : Nat)

/-! ## Roles and permissions -/

namespace RoleService

def createRole (data : RoleCreate) : Session (Nat × Role) := do
  let existing ← query fun t => t.roles.first fun role => role.name == data.name
  if existing.isSome then throw (.valueError "Role already exists.")
  let role : Role := { name := data.name, description := data.description }
  let id ← commit request (.insertRole role)
  return (id, role)

def getRole (roleId : Nat) : Session (Option Role) :=
  query fun t => t.roles.get roleId

def getAllRoles : Session (List (Nat × Role)) :=
  query fun t => t.roles.rows

def updateRole (roleId : Nat) (data : RoleUpdate) : Session (Nat × Option Role) := do
  let some role ← getRole roleId | throw (.valueError "Role not found.")
  let changes : RoleChanges :=
    { name := changed role.name data.name
      description := data.description.filter fun d => some d ≠ role.description }
  let id ← commit request (.updateRole roleId changes)
  let updated ← getRole roleId
  return (id, updated)

def deleteRole (roleId : Nat) : Session Unit := do
  let some _ ← getRole roleId | throw (.valueError "Role not found.")
  let _ ← commit request (.deleteRole roleId)

end RoleService

namespace PermissionService

def createPermission (data : PermissionCreate) : Session (Nat × Permission) := do
  let existing ← query fun t => t.permissions.first fun p => p.name == data.name
  if existing.isSome then throw (.valueError "Permission already exists.")
  let permission : Permission := { name := data.name, description := data.description }
  let id ← commit request (.insertPermission permission)
  return (id, permission)

def getPermission (permissionId : Nat) : Session (Option Permission) :=
  query fun t => t.permissions.get permissionId

def getAllPermissions : Session (List (Nat × Permission)) :=
  query fun t => t.permissions.rows

def updatePermission (permissionId : Nat) (data : PermissionUpdate) :
    Session (Nat × Option Permission) := do
  let some permission ← getPermission permissionId
    | throw (.valueError "Permission not found.")
  let changes : PermissionChanges :=
    { name := changed permission.name data.name
      description := data.description.filter fun d => some d ≠ permission.description }
  let id ← commit request (.updatePermission permissionId changes)
  let updated ← getPermission permissionId
  return (id, updated)

def deletePermission (permissionId : Nat) : Session Unit := do
  let some _ ← getPermission permissionId | throw (.valueError "Permission not found.")
  let _ ← commit request (.deletePermission permissionId)

end PermissionService

namespace RolePermissionService

def assignPermission (roleId permissionId : Nat) : Session (Nat × RolePermission) := do
  let some _ ← query fun t => t.roles.get roleId | throw (.valueError "Role not found.")
  let some _ ← query fun t => t.permissions.get permissionId
    | throw (.valueError "Permission not found.")
  let assignment : RolePermission := { roleId, permissionId }
  let existing ← query fun t => t.rolePermissions.first (· == assignment)
  if existing.isSome then throw (.valueError "Permission already assigned.")
  let id ← commit request (.insertRolePermission assignment)
  return (id, assignment)

def removePermission (roleId permissionId : Nat) : Session Unit := do
  let some (id, _) ← query fun t => t.rolePermissions.first (· == { roleId, permissionId })
    | throw (.valueError "Permission assignment not found.")
  let _ ← commit request (.deleteRolePermission id)

end RolePermissionService

namespace UserRoleService

def assignRole (userId roleId : Nat) : Session (Nat × UserRole) := do
  let some _ ← query fun t => t.users.get userId | throw (.valueError "User not found.")
  let some _ ← query fun t => t.roles.get roleId | throw (.valueError "Role not found.")
  let assignment : UserRole := { userId, roleId }
  let existing ← query fun t => t.userRoles.first (· == assignment)
  if existing.isSome then throw (.valueError "User already has this role.")
  let id ← commit request (.insertUserRole assignment)
  return (id, assignment)

def removeRole (userId roleId : Nat) : Session Unit := do
  let some (id, _) ← query fun t => t.userRoles.first (· == { userId, roleId })
    | throw (.valueError "Role assignment not found.")
  let _ ← commit request (.deleteUserRole id)

end UserRoleService

/-! ## Organizations -/

namespace OrganizationService

def create (organizationIn : OrganizationCreate) : Session (Nat × Organization) := do
  let byName ← query fun t => t.organizations.first fun o => o.name == organizationIn.name
  if byName.isSome then throw (.valueError "Organization name already exists.")
  let bySlug ← query fun t => t.organizations.first fun o => o.slug == organizationIn.slug
  if bySlug.isSome then throw (.valueError "Organization slug already exists.")
  let organization : Organization :=
    { name := organizationIn.name
      slug := organizationIn.slug
      description := organizationIn.description }
  let id ← commit request (.insertOrganization organization)
  return (id, organization)

def get (organizationId : Nat) : Session (Option Organization) :=
  query fun t => t.organizations.get organizationId

/-- In the order of creation, the last one first. -/
def getAll : Session (List (Nat × Organization)) :=
  query fun t => t.organizations.rows.reverse

def update (organizationId : Nat) (organization : Organization)
    (organizationIn : OrganizationUpdate) : Session (Nat × Option Organization) := do
  let changes : OrganizationChanges :=
    { name := changed (some organization.name) organizationIn.name
      slug := changed (some organization.slug) organizationIn.slug
      description := changed organization.description organizationIn.description
      isActive := changed (some organization.isActive) organizationIn.isActive }
  let id ← commit request (.updateOrganization organizationId changes)
  let updated ← get organizationId
  return (id, updated)

def delete (organizationId : Nat) : Session Unit := do
  let _ ← commit request (.deleteOrganization organizationId)

end OrganizationService

namespace OrganizationMemberService

def addMember (memberIn : OrganizationMemberCreate) : Session (Nat × OrganizationMember) := do
  let member : OrganizationMember :=
    { organizationId := memberIn.organizationId, userId := memberIn.userId }
  let existing ← query fun t => t.organizationMembers.first (· == member)
  if existing.isSome then throw (.valueError "User is already a member of this organization.")
  let id ← commit request (.insertOrganizationMember member)
  return (id, member)

def removeMember (organizationId userId : Nat) : Session Unit := do
  let some (id, _) ← query fun t => t.organizationMembers.first (· == { organizationId, userId })
    | throw (.valueError "Membership not found.")
  let _ ← commit request (.deleteOrganizationMember id)

def getUserOrganizations (userId : Nat) : Session (List (Nat × OrganizationMember)) :=
  query fun t => t.organizationMembers.select fun m => m.userId == userId

def getOrganizationMembers (organizationId : Nat) : Session (List (Nat × OrganizationMember)) :=
  query fun t => t.organizationMembers.select fun m => m.organizationId == organizationId

end OrganizationMemberService

/-! ## Users -/

/-- `passlib`, with the salt that a hash draws. -/
structure Passwords where
  hash : Nat → String → String
  verify : String → String → Bool

/-- `email.strip().lower()`. -/
def normalized (lower : Lower) (email : String) : String :=
  lower.lower (String.ofList (strip email.toList))

namespace AuthService

variable (lower : Lower) (passwords : Passwords) (salt : Nat)

def register (payload : RegisterRequest) : Session (Nat × User) := do
  let emailNormalized := normalized lower payload.email
  let existing ← query fun t => t.users.first fun user => user.email == emailNormalized
  if existing.isSome then throw (.http 409 "Email already exists.")
  if payload.password.length < 8 then
    throw (.http 400 "Password must be at least 8 characters long.")
  let user : User :=
    { fullName := payload.fullName
      email := emailNormalized
      passwordHash := passwords.hash salt payload.password }
  let id ← commit request (.insertUser user)
  return (id, user)

/-- The subject of the token. -/
def login (email password : String) : Session Nat := do
  let emailNormalized := normalized lower email
  let some (id, user) ← query fun t => t.users.first fun user => user.email == emailNormalized
    | throw (.http 401 "Invalid credentials.")
  if !user.isActive then throw (.http 403 "Inactive user.")
  if !passwords.verify password user.passwordHash then
    throw (.http 401 "Invalid credentials.")
  return id

end AuthService

namespace UserService

def getUser (userId : Nat) : Session (Option User) :=
  query fun t => t.users.get userId

def getAllUsers : Session (List (Nat × User)) :=
  query fun t => t.users.rows

def getUserByEmail (email : String) : Session (Option (Nat × User)) :=
  query fun t => t.users.first fun user => user.email == email

def createUser (user : User) : Session (Nat × User) := do
  let id ← commit request (.insertUser user)
  return (id, user)

end UserService

end AgentCorp.Access
