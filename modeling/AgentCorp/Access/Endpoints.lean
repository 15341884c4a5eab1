/-
  The endpoints for roles, permissions, organizations and users, behind their access checks.

  `caller` is the subject of the bearer token of a request, or `none` where the token is not
  accepted. An endpoint turns the `ValueError` of its service into an answer with its own code.
-/
import AgentCorp.Access.Services

namespace AgentCorp.Access

open AgentCorp.Python
open Interleaving

/-! ## Access checks -/

/-- The first row of the query behind a permission check. -/
def grantedPermission (t : AccessTables) (userId : Nat) (name : String) :
    Option (Nat × Permission) :=
  t.permissions.rows.find? fun (id, permission) =>
    permission.name == name &&
      t.rolePermissions.any fun granted =>
        granted.permissionId == id &&
          t.userRoles.any fun assigned =>
            assigned.roleId == granted.roleId && assigned.userId == userId

def getCurrentUser (caller : Option Nat) : Session (Nat × User) := do
  let some userId := caller | throw (.http 401 "Invalid authentication credentials.")
  let some user ← query fun t => t.users.get userId | throw (.http 401 "User not found.")
  return (userId, user)

def getCurrentActiveUser (caller : Option Nat) : Session (Nat × User) := do
  let (userId, user) ← getCurrentUser caller
  if !user.isActive then throw (.http 403 "Inactive user.")
  return (userId, user)

def getCurrentSuperuser (caller : Option Nat) : Session (Nat × User) := do
  let (userId, user) ← getCurrentActiveUser caller
  if !user.isSuperuser then throw (.http 403 "Insufficient privileges.")
  return (userId, user)

def requirePermission (name : String) (caller : Option Nat) : Session (Nat × User) := do
  let (userId, user) ← getCurrentActiveUser caller
  if user.isSuperuser then return (userId, user)
  let permission ← query fun t => grantedPermission t userId name
  if permission.isNone then throw (.http 403 "Permission denied.")
  return (userId, user)

def verifyOrganizationMembership (organizationId : Nat) (currentUser : Nat × User) :
    Session Unit := do
  if currentUser.2.isSuperuser then return ()
  let membership ← query fun t =>
    t.organizationMembers.first (· == { organizationId, userId := currentUser.1 })
  if membership.isNone then throw (.http 403 "You do not have access to this organization.")

/-- `except ValueError as exc: raise HTTPException(statusCode, str(exc))`. -/
def valueErrorAs {α : Type} (statusCode : Nat) (x : Session α) : Session α :=
  tryCatch x fun
    | .valueError message => throw (.http statusCode message)
    | exc => throw exc

/-! ## Answers -/

structure UserResponse where
  id : Nat
  fullName : String
  email : String
  isActive : Bool
  isSuperuser : Bool
  deriving DecidableEq, Repr

def UserResponse.of (id : Nat) (user : User) : UserResponse where
  id := id
  fullName := user.fullName
  email := user.email
  isActive := user.isActive
  isSuperuser := user.isSuperuser

inductive Reply where
  | role (id : Nat) (row : Option Role)
  | roles (rows : List (Nat × Role))
  | permission (id : Nat) (row : Option Permission)
  | permissions (rows : List (Nat × Permission))
  | rolePermission (id : Nat) (row : RolePermission)
  | userRole (id : Nat) (row : UserRole)
  | organization (id : Nat) (row : Option Organization)
  | organizations (rows : List (Nat × Organization))
  | organizationMember (id : Nat) (row : OrganizationMember)
  | organizationMembers (rows : List (Nat × OrganizationMember))
  | user (row : UserResponse)
  | users (rows : List UserResponse)
  | token (subject : Nat)
  | dashboard (user : String)
  | message (text : String)
  | noContent
  deriving DecidableEq, Repr

variable (request : Nat) (caller : Option Nat)

/-! ## Roles and permissions -/

def getRoles : Session Reply := do
  let _ ← requirePermission "role:read" caller
  return .roles (← RoleService.getAllRoles)

def getRole (roleId : Nat) : Session Reply := do
  let _ ← requirePermission "role:read" caller
  let some role ← RoleService.getRole roleId | throw (.http 404 "Role not found.")
  return .role roleId role

def createRole (data : RoleCreate) : Session Reply := do
  let _ ← requirePermission "role:create" caller
  let (id, role) ← valueErrorAs 400 (RoleService.createRole request data)
  return .role id role

def updateRole (roleId : Nat) (data : RoleUpdate) : Session Reply := do
  let _ ← requirePermission "role:update" caller
  let (id, role) ← valueErrorAs 404 (RoleService.updateRole request roleId data)
  return .role id role

def deleteRole (roleId : Nat) : Session Reply := do
  let _ ← requirePermission "role:delete" caller
  valueErrorAs 404 (RoleService.deleteRole request roleId)
  return .noContent

def getPermissions : Session Reply := do
  let _ ← requirePermission "permission:read" caller
  return .permissions (← PermissionService.getAllPermissions)

def createPermission (data : PermissionCreate) : Session Reply := do
  let _ ← requirePermission "permission:create" caller
  let (id, permission) ← valueErrorAs 400 (PermissionService.createPermission request data)
  return .permission id permission

def updatePermission (permissionId : Nat) (data : PermissionUpdate) : Session Reply := do
  let _ ← requirePermission "permission:update" caller
  let (id, permission) ←
    valueErrorAs 404 (PermissionService.updatePermission request permissionId data)
  return .permission id permission

def deletePermission (permissionId : Nat) : Session Reply := do
  let _ ← requirePermission "permission:delete" caller
  valueErrorAs 404 (PermissionService.deletePermission request permissionId)
  return .noContent

def assignPermission (roleId permissionId : Nat) : Session Reply := do
  let _ ← requirePermission "permission:assign" caller
  let (id, assignment) ←
    valueErrorAs 400 (RolePermissionService.assignPermission request roleId permissionId)
  return .rolePermission id assignment

def removePermission (roleId permissionId : Nat) : Session Reply := do
  let _ ← requirePermission "permission:assign" caller
  valueErrorAs 404 (RolePermissionService.removePermission request roleId permissionId)
  return .message "Permission removed successfully."

def assignRole (userId roleId : Nat) : Session Reply := do
  let _ ← requirePermission "role:assign" caller
  let (id, assignment) ← valueErrorAs 400 (UserRoleService.assignRole request userId roleId)
  return .userRole id assignment

def removeRole (userId roleId : Nat) : Session Reply := do
  let _ ← requirePermission "role:assign" caller
  valueErrorAs 404 (UserRoleService.removeRole request userId roleId)
  return .message "Role removed successfully."

/-! ## Organizations -/

def createOrganization (organizationIn : OrganizationCreate) : Session Reply := do
  let _ ← getCurrentActiveUser caller
  let (id, organization) ← valueErrorAs 400 (OrganizationService.create request organizationIn)
  return .organization id organization

def listOrganizations : Session Reply := do
  let _ ← requirePermission "organization:read" caller
  return .organizations (← OrganizationService.getAll)

def getOrganization (organizationId : Nat) : Session Reply := do
  let currentUser ← getCurrentActiveUser caller
  verifyOrganizationMembership organizationId currentUser
  let some organization ← OrganizationService.get organizationId
    | throw (.http 404 "Organization not found.")
  return .organization organizationId organization

def updateOrganization (organizationId : Nat) (organizationIn : OrganizationUpdate) :
    Session Reply := do
  let currentUser ← requirePermission "organization:update" caller
  verifyOrganizationMembership organizationId currentUser
  let some organization ← OrganizationService.get organizationId
    | throw (.http 404 "Organization not found.")
  let (id, updated) ←
    OrganizationService.update request organizationId organization organizationIn
  return .organization id updated

def deleteOrganization (organizationId : Nat) : Session Reply := do
  let currentUser ← requirePermission "organization:delete" caller
  verifyOrganizationMembership organizationId currentUser
  let some _ ← OrganizationService.get organizationId
    | throw (.http 404 "Organization not found.")
  OrganizationService.delete request organizationId
  return .noContent

def addMember (memberIn : OrganizationMemberCreate) : Session Reply := do
  let currentUser ← requirePermission "organization:update" caller
  verifyOrganizationMembership memberIn.organizationId currentUser
  let (id, member) ← valueErrorAs 400 (OrganizationMemberService.addMember request memberIn)
  return .organizationMember id member

def listMembers (organizationId : Nat) : Session Reply := do
  let currentUser ← getCurrentActiveUser caller
  verifyOrganizationMembership organizationId currentUser
  return .organizationMembers (← OrganizationMemberService.getOrganizationMembers organizationId)

def listUserOrganizations (userId : Nat) : Session Reply := do
  let (currentId, currentUser) ← getCurrentActiveUser caller
  if !currentUser.isSuperuser && currentId != userId then
    throw (.http 403 "You can only list your own memberships.")
  return .organizationMembers (← OrganizationMemberService.getUserOrganizations userId)

def removeMember (organizationId userId : Nat) : Session Reply := do
  let currentUser ← requirePermission "organization:update" caller
  verifyOrganizationMembership organizationId currentUser
  valueErrorAs 404 (OrganizationMemberService.removeMember request organizationId userId)
  return .noContent

/-! ## Users -/

section Users

variable (lower : Lower) (passwords : Passwords) (salt : Nat)

def getUser (userId : Nat) : Session Reply := do
  let some user ← UserService.getUser userId | throw (.http 404 "User not found.")
  return .user (.of userId user)

def getUsers : Session Reply := do
  let rows ← UserService.getAllUsers
  return .users (rows.map fun (id, user) => .of id user)

def createUser (payload : UserCreate) : Session Reply := do
  let existing ← UserService.getUserByEmail payload.email
  if existing.isSome then throw (.http 409 "Email already exists.")
  let user : User :=
    { fullName := payload.fullName
      email := payload.email
      passwordHash := passwords.hash salt payload.password }
  let (id, created) ← UserService.createUser request user
  return .user (.of id created)

def register (payload : RegisterRequest) : Session Reply := do
  let (id, user) ← AuthService.register request lower passwords salt payload
  return .user (.of id user)

def login (email password : String) : Session Reply := do
  let subject ← AuthService.login lower passwords email password
  return .token subject

def dashboard : Session Reply := do
  let (_, user) ← getCurrentSuperuser caller
  return .dashboard user.fullName

end Users

/-! ## All of them -/

inductive Endpoint where
  | getRoles
  | getRole (roleId : Nat)
  | createRole (data : RoleCreate)
  | updateRole (roleId : Nat) (data : RoleUpdate)
  | deleteRole (roleId : Nat)
  | getPermissions
  | createPermission (data : PermissionCreate)
  | updatePermission (permissionId : Nat) (data : PermissionUpdate)
  | deletePermission (permissionId : Nat)
  | assignPermission (roleId permissionId : Nat)
  | removePermission (roleId permissionId : Nat)
  | assignRole (userId roleId : Nat)
  | removeRole (userId roleId : Nat)
  | createOrganization (organizationIn : OrganizationCreate)
  | listOrganizations
  | getOrganization (organizationId : Nat)
  | updateOrganization (organizationId : Nat) (organizationIn : OrganizationUpdate)
  | deleteOrganization (organizationId : Nat)
  | addMember (memberIn : OrganizationMemberCreate)
  | listMembers (organizationId : Nat)
  | listUserOrganizations (userId : Nat)
  | removeMember (organizationId userId : Nat)
  | getUser (userId : Nat)
  | getUsers
  | createUser (payload : UserCreate)
  | register (payload : RegisterRequest)
  | login (email password : String)
  | dashboard
  deriving DecidableEq, Repr

/-- A request, with the number it has among all and the salt it would draw. -/
structure Request where
  id : Nat
  caller : Option Nat
  salt : Nat
  endpoint : Endpoint
  deriving DecidableEq, Repr

def Request.handle (lower : Lower) (passwords : Passwords) (r : Request) : Session Reply :=
  match r.endpoint with
  | .getRoles => Access.getRoles r.caller
  | .getRole roleId => Access.getRole r.caller roleId
  | .createRole data => Access.createRole r.id r.caller data
  | .updateRole roleId data => Access.updateRole r.id r.caller roleId data
  | .deleteRole roleId => Access.deleteRole r.id r.caller roleId
  | .getPermissions => Access.getPermissions r.caller
  | .createPermission data => Access.createPermission r.id r.caller data
  | .updatePermission permissionId data => Access.updatePermission r.id r.caller permissionId data
  | .deletePermission permissionId => Access.deletePermission r.id r.caller permissionId
  | .assignPermission roleId permissionId =>
      Access.assignPermission r.id r.caller roleId permissionId
  | .removePermission roleId permissionId =>
      Access.removePermission r.id r.caller roleId permissionId
  | .assignRole userId roleId => Access.assignRole r.id r.caller userId roleId
  | .removeRole userId roleId => Access.removeRole r.id r.caller userId roleId
  | .createOrganization organizationIn => Access.createOrganization r.id r.caller organizationIn
  | .listOrganizations => Access.listOrganizations r.caller
  | .getOrganization organizationId => Access.getOrganization r.caller organizationId
  | .updateOrganization organizationId organizationIn =>
      Access.updateOrganization r.id r.caller organizationId organizationIn
  | .deleteOrganization organizationId => Access.deleteOrganization r.id r.caller organizationId
  | .addMember memberIn => Access.addMember r.id r.caller memberIn
  | .listMembers organizationId => Access.listMembers r.caller organizationId
  | .listUserOrganizations userId => Access.listUserOrganizations r.caller userId
  | .removeMember organizationId userId =>
      Access.removeMember r.id r.caller organizationId userId
  | .getUser userId => Access.getUser userId
  | .getUsers => Access.getUsers
  | .createUser payload => Access.createUser r.id passwords r.salt payload
  | .register payload => Access.register r.id lower passwords r.salt payload
  | .login email password => Access.login lower passwords email password
  | .dashboard => Access.dashboard r.caller

end AgentCorp.Access
