/-
  Permissions as what the log of commits has assigned and granted.

  A permission check joins three facts: the user has the role, the role has the permission, and
  the permission has the name.

  * `fact_write`: what an accepted write does to these facts.
  * `permits_iff_live`: after any commits, a permission check lets in who has the facts that the
    log has added and not taken back.
-/
import AgentCorp.Access.Authorization
import AgentCorp.Lib.LiveFacts

namespace AgentCorp.Access

open AgentCorp.Python
open Interleaving
open LiveFacts

/-! ## Facts and effects -/

inductive Fact where
  | member (userId roleId : Nat)
  | grants (roleId permissionId : Nat)
  | named (permissionId : Nat) (name : String)
  deriving DecidableEq, Repr

def AccessTables.Fact (t : AccessTables) : Access.Fact → Prop
  | .member userId roleId => t.userRoles.Has { userId, roleId }
  | .grants roleId permissionId => t.rolePermissions.Has { roleId, permissionId }
  | .named permissionId name =>
      ∃ description, t.permissions.get permissionId = some { name, description }

theorem holds_iff_fact {t : AccessTables} {userId : Nat} {name : String} :
    Holds t userId name ↔ ∃ roleId permissionId, t.Fact (.member userId roleId) ∧
      t.Fact (.grants roleId permissionId) ∧ t.Fact (.named permissionId name) := by
  simp only [Holds, AccessTables.Fact, exists_and_left]

/-- What a commit does to roles and permissions, as an entry of the log. -/
inductive Effect where
  | assigned (userId roleId : Nat)
  | unassigned (userId roleId : Nat)
  | granted (roleId permissionId : Nat)
  | revoked (roleId permissionId : Nat)
  | named (permissionId : Nat) (name : String)
  | roleDeleted (roleId : Nat)
  | permissionDeleted (permissionId : Nat)
  | elsewhere
  deriving DecidableEq, Repr

def Write.effect (t : AccessTables) : Write → Effect
  | insertUserRole row => .assigned row.userId row.roleId
  | deleteUserRole id =>
      match t.userRoles.get id with
      | some row => .unassigned row.userId row.roleId
      | none => .elsewhere
  | insertRolePermission row => .granted row.roleId row.permissionId
  | deleteRolePermission id =>
      match t.rolePermissions.get id with
      | some row => .revoked row.roleId row.permissionId
      | none => .elsewhere
  | insertPermission row => .named t.permissions.next row.name
  | updatePermission id changes =>
      match t.permissions.get id with
      | some permission => .named id (changes.assign permission).name
      | none => .elsewhere
  | deleteRole id => .roleDeleted id
  | deletePermission id => .permissionDeleted id
  | _ => .elsewhere

def Effect.Adds : Effect → Access.Fact → Prop
  | assigned userId roleId, f => f = .member userId roleId
  | granted roleId permissionId, f => f = .grants roleId permissionId
  | named permissionId name, f => f = .named permissionId name
  | _, _ => False

def Effect.Removes : Effect → Access.Fact → Prop
  | unassigned userId roleId, f => f = .member userId roleId
  | revoked roleId permissionId, f => f = .grants roleId permissionId
  | named permissionId _, f => ∃ name, f = .named permissionId name
  | roleDeleted roleId, f =>
      (∃ userId, f = .member userId roleId) ∨ ∃ permissionId, f = .grants roleId permissionId
  | permissionDeleted permissionId, f =>
      (∃ roleId, f = .grants roleId permissionId) ∨ ∃ name, f = .named permissionId name
  | _, _ => False

def ledger : Ledger Effect Access.Fact where
  adds := Effect.Adds
  removes := Effect.Removes

/-! ## One write -/

section Write

variable {t : AccessTables} {f : Access.Fact}

theorem fact_insertPermission (row : Permission) :
    ((Write.insertPermission row).apply t).Fact f ↔
      (Effect.named t.permissions.next row.name).Adds f ∨
        (t.Fact f ∧ ¬ (Effect.named t.permissions.next row.name).Removes f) := by
  cases f with
  | member userId roleId => simp [AccessTables.Fact, Write.apply, Effect.Adds, Effect.Removes]
  | grants roleId permissionId =>
      simp [AccessTables.Fact, Write.apply, Effect.Adds, Effect.Removes]
  | named permissionId name =>
      simp only [AccessTables.Fact, Write.apply, Effect.Adds, Effect.Removes, Table.get_insert]
      by_cases hid : permissionId = t.permissions.next
      · subst hid
        obtain ⟨rowName, description⟩ := row
        simp [eq_comm]
      · simp [hid]

theorem fact_updatePermission (id : Nat) (changes : PermissionChanges) :
    ((Write.updatePermission id changes).apply t).Fact f ↔
      ((Write.updatePermission id changes).effect t).Adds f ∨
        (t.Fact f ∧ ¬ ((Write.updatePermission id changes).effect t).Removes f) := by
  simp only [Write.effect]
  cases f with
  | member userId roleId =>
      split <;> simp [AccessTables.Fact, Write.apply, Effect.Adds, Effect.Removes]
  | grants roleId permissionId =>
      split <;> simp [AccessTables.Fact, Write.apply, Effect.Adds, Effect.Removes]
  | named permissionId name =>
      simp only [AccessTables.Fact, Write.apply, Table.get_modify]
      by_cases hid : permissionId = id
      · subst hid
        cases hget : t.permissions.get permissionId with
        | none => simp [Effect.Adds]
        | some permission =>
            simp [Effect.Adds, Effect.Removes, PermissionChanges.assign, eq_comm]
      · rw [if_neg hid]
        cases hget : t.permissions.get id <;> simp [Effect.Adds, Effect.Removes, hid]

theorem fact_deleteUserRole (h : t.Valid) (id : Nat) :
    ((Write.deleteUserRole id).apply t).Fact f ↔
      ((Write.deleteUserRole id).effect t).Adds f ∨
        (t.Fact f ∧ ¬ ((Write.deleteUserRole id).effect t).Removes f) := by
  simp only [Write.effect]
  cases hget : t.userRoles.get id with
  | none =>
      cases f <;> simp [AccessTables.Fact, Write.apply, Effect.Adds, Effect.Removes,
        Table.has_delete_of_none hget]
  | some row =>
      obtain ⟨rowUserId, rowRoleId⟩ := row
      cases f <;> simp [AccessTables.Fact, Write.apply, Effect.Adds, Effect.Removes,
        Table.has_delete hget h.userRole]

theorem fact_deleteRolePermission (h : t.Valid) (id : Nat) :
    ((Write.deleteRolePermission id).apply t).Fact f ↔
      ((Write.deleteRolePermission id).effect t).Adds f ∨
        (t.Fact f ∧ ¬ ((Write.deleteRolePermission id).effect t).Removes f) := by
  simp only [Write.effect]
  cases hget : t.rolePermissions.get id with
  | none =>
      cases f <;> simp [AccessTables.Fact, Write.apply, Effect.Adds, Effect.Removes,
        Table.has_delete_of_none hget]
  | some row =>
      obtain ⟨rowRoleId, rowPermissionId⟩ := row
      cases f <;> simp [AccessTables.Fact, Write.apply, Effect.Adds, Effect.Removes,
        Table.has_delete hget h.rolePermission]

theorem fact_deleteRole (id : Nat) :
    ((Write.deleteRole id).apply t).Fact f ↔
      (Effect.roleDeleted id).Adds f ∨ (t.Fact f ∧ ¬ (Effect.roleDeleted id).Removes f) := by
  cases f <;> simp [AccessTables.Fact, Write.apply, Effect.Adds, Effect.Removes,
    Table.has_deleteWhere]

theorem fact_deletePermission (id : Nat) :
    ((Write.deletePermission id).apply t).Fact f ↔
      (Effect.permissionDeleted id).Adds f ∨
        (t.Fact f ∧ ¬ (Effect.permissionDeleted id).Removes f) := by
  cases f <;> simp [AccessTables.Fact, Write.apply, Effect.Adds, Effect.Removes,
    Table.has_deleteWhere, Table.get_delete]

theorem fact_insertUserRole (row : UserRole) :
    ((Write.insertUserRole row).apply t).Fact f ↔
      (Effect.assigned row.userId row.roleId).Adds f ∨
        (t.Fact f ∧ ¬ (Effect.assigned row.userId row.roleId).Removes f) := by
  obtain ⟨rowUserId, rowRoleId⟩ := row
  cases f <;> simp [AccessTables.Fact, Write.apply, Effect.Adds, Effect.Removes, Table.has_insert]

theorem fact_insertRolePermission (row : RolePermission) :
    ((Write.insertRolePermission row).apply t).Fact f ↔
      (Effect.granted row.roleId row.permissionId).Adds f ∨
        (t.Fact f ∧ ¬ (Effect.granted row.roleId row.permissionId).Removes f) := by
  obtain ⟨rowRoleId, rowPermissionId⟩ := row
  cases f <;> simp [AccessTables.Fact, Write.apply, Effect.Adds, Effect.Removes, Table.has_insert]

/-- What happens elsewhere leaves the facts as they are. -/
theorem fact_elsewhere {t' : AccessTables} (huserRoles : t'.userRoles = t.userRoles)
    (hrolePermissions : t'.rolePermissions = t.rolePermissions)
    (hpermissions : t'.permissions = t.permissions) :
    t'.Fact f ↔ Effect.elsewhere.Adds f ∨ (t.Fact f ∧ ¬ Effect.elsewhere.Removes f) := by
  cases f <;> simp [AccessTables.Fact, Effect.Adds, Effect.Removes, huserRoles, hrolePermissions,
    hpermissions]

theorem fact_write (h : t.Valid) (w : Write) :
    (w.apply t).Fact f ↔
      (w.effect t).Adds f ∨ (t.Fact f ∧ ¬ (w.effect t).Removes f) := by
  cases w with
  | insertUser row => exact fact_elsewhere rfl rfl rfl
  | insertRole row => exact fact_elsewhere rfl rfl rfl
  | updateRole id changes => exact fact_elsewhere rfl rfl rfl
  | deleteRole id => exact fact_deleteRole id
  | insertPermission row => exact fact_insertPermission row
  | updatePermission id changes => exact fact_updatePermission id changes
  | deletePermission id => exact fact_deletePermission id
  | insertUserRole row => exact fact_insertUserRole row
  | deleteUserRole id => exact fact_deleteUserRole h id
  | insertRolePermission row => exact fact_insertRolePermission row
  | deleteRolePermission id => exact fact_deleteRolePermission h id
  | insertOrganization row => exact fact_elsewhere rfl rfl rfl
  | updateOrganization id changes => exact fact_elsewhere rfl rfl rfl
  | deleteOrganization id => exact fact_elsewhere rfl rfl rfl
  | insertOrganizationMember row => exact fact_elsewhere rfl rfl rfl
  | deleteOrganizationMember id => exact fact_elsewhere rfl rfl rfl

end Write

/-! ## The log -/

/-- What a commit puts into the log. -/
def Commit.effect (c : Commit) (db : AccessDb) : Effect :=
  if c.write.allowed db.tables then c.write.effect db.tables else .elsewhere

/-- The database after some commits. -/
def AccessDb.after (db : AccessDb) (commits : List Commit) : AccessDb :=
  commits.foldl (fun db c => c.apply db) db

/-- Their log. -/
def AccessDb.log (db : AccessDb) : List Commit → List Effect
  | [] => []
  | c :: commits => c.effect db :: (c.apply db).log commits

theorem log_append (db : AccessDb) (commits more : List Commit) :
    db.log (commits ++ more) = db.log commits ++ (db.after commits).log more := by
  induction commits generalizing db with
  | nil => rfl
  | cons c commits ih => exact congrArg (c.effect db :: ·) (ih (c.apply db))

theorem fact_commit (c : Commit) (db : AccessDb) (f : Access.Fact) :
    (c.apply db).tables.Fact f ↔
      (c.effect db).Adds f ∨ (db.tables.Fact f ∧ ¬ (c.effect db).Removes f) := by
  rw [Commit.tables_apply]
  unfold Commit.effect
  split
  · exact fact_write db.valid c.write
  · exact fact_elsewhere rfl rfl rfl

theorem fact_after (db : AccessDb) (commits : List Commit) (f : Access.Fact) :
    (db.after commits).tables.Fact f ↔ Live ledger db.tables.Fact (db.log commits) f := by
  refine holds_iff_live db.after db.log (fun db => db.tables.Fact) rfl ?_ commits f
  intro commits c
  refine ⟨c.effect (db.after commits), log_append db commits [c], fun f => ?_⟩
  have hafter : db.after (commits ++ [c]) = c.apply (db.after commits) := by
    simp [AccessDb.after, List.foldl_append]
  rw [hafter]
  exact fact_commit c (db.after commits) f

/-! ## The check -/

theorem alone_query {α : Type} (f : AccessTables → α) (db : AccessDb) :
    Raising.alone Commit.apply (query f) db = (.ok (f db.tables), db) := rfl

/-- Whom the permission check lets in, when nobody interrupts it. -/
theorem requirePermission_ok_iff (name : String) (userId : Nat) (db : AccessDb) :
    (∃ current, (Raising.alone Commit.apply (requirePermission name (some userId)) db).1 =
        .ok current) ↔
      ∃ user, db.tables.users.get userId = some user ∧ user.isActive = true ∧
        (user.isSuperuser = true ∨ Holds db.tables userId name) := by
  unfold requirePermission getCurrentActiveUser getCurrentUser
  simp only [Raising.alone_bind, alone_query]
  cases hget : db.tables.users.get userId with
  | none => simp
  | some user =>
      cases hactive : user.isActive with
      | false => simp [hactive, Raising.alone_bind]
      | true =>
      cases hsuper : user.isSuperuser with
      | true => simp [hactive, hsuper]
      | false =>
          rw [← grantedPermission_isSome]
          cases hgranted : grantedPermission db.tables userId name <;>
            simp [hactive, hsuper, hgranted, Raising.alone_bind, alone_query]

/-- **Permissions are what the log says.** At any moment of any interleaving of requests, the
    permission check lets in the active superusers, and the active users with a role that was
    assigned to them, to which a permission of this name was granted, none of it taken back. -/
theorem permits_iff_live {lower : Lower} {passwords : Passwords} {requests : List Request}
    {db : AccessDb} {trace : List (Commit × AccessDb)}
    (hrun : Runs Commit.apply db (requests.map fun r => (r.handle lower passwords).run) trace)
    {i : Nat} {c : Commit} {s : AccessDb} (hi : (trace)[i]? = some (c, s)) (name : String)
    (userId : Nat) :
    (∃ current, (Raising.alone Commit.apply (requirePermission name (some userId)) s).1 =
        .ok current) ↔
      ∃ user, s.tables.users.get userId = some user ∧ user.isActive = true ∧
        (user.isSuperuser = true ∨ ∃ roleId permissionId,
          let log := db.log ((trace.take (i + 1)).map (·.1))
          Live ledger db.tables.Fact log (.member userId roleId) ∧
            Live ledger db.tables.Fact log (.grants roleId permissionId) ∧
            Live ledger db.tables.Fact log (.named permissionId name)) := by
  have hs : s = db.after ((trace.take (i + 1)).map (·.1)) := hrun.state_eq hi
  rw [requirePermission_ok_iff, holds_iff_fact]
  simp only [← fact_after, ← hs]

/-! ## An installation -/

/-- A database without rows. -/
def AccessDb.empty : AccessDb where
  tables := ⟨.empty, .empty, .empty, .empty, .empty, .empty, .empty⟩
  valid := ⟨Table.unique_empty _, Table.unique_empty _, Table.unique_empty _,
    Table.unique_empty _, Table.unique_empty _, Table.unique_empty _, Table.unique_empty _,
    Table.unique_empty _, Table.refers_empty _ _, Table.refers_empty _ _,
    Table.refers_empty _ _, Table.refers_empty _ _, Table.refers_empty _ _,
    Table.refers_empty _ _⟩
  outcome := fun _ => none

/-- One user may assign roles, the other has none. The first one is in an organization. -/
def installation : AccessDb :=
  AccessDb.empty.after
    [⟨0, .insertUser { fullName := "Root", email := "root@corp.io", passwordHash := "hash" }⟩,
      ⟨0, .insertUser { fullName := "Ada", email := "ada@corp.io", passwordHash := "hash" }⟩,
      ⟨0, .insertRole { name := "Admin" }⟩,
      ⟨0, .insertPermission { name := "role:assign" }⟩,
      ⟨0, .insertRolePermission { roleId := 0, permissionId := 0 }⟩,
      ⟨0, .insertUserRole { userId := 0, roleId := 0 }⟩,
      ⟨0, .insertOrganization { name := "Corp", slug := "corp" }⟩,
      ⟨0, .insertOrganizationMember { organizationId := 0, userId := 0 }⟩]

/-- A hash that shows the password. -/
def plainPasswords : Passwords where
  hash _ password := "plain:" ++ password
  verify password hashed := hashed == "plain:" ++ password

/-- The one user gives the role to the other. -/
def assignAdmin : Request where
  id := 1
  caller := some 0
  salt := 0
  endpoint := .assignRole 1 0

theorem permits_iff_live_installation :
    let c : Commit := ⟨1, .insertUserRole { userId := 1, roleId := 0 }⟩
    (∃ current, (Raising.alone Commit.apply (requirePermission "role:assign" (some 1))
        (c.apply installation)).1 = .ok current) ↔
      ∃ user, (c.apply installation).tables.users.get 1 = some user ∧ user.isActive = true ∧
        (user.isSuperuser = true ∨ ∃ roleId permissionId,
          Live ledger installation.tables.Fact (installation.log [c]) (.member 1 roleId) ∧
            Live ledger installation.tables.Fact (installation.log [c])
              (.grants roleId permissionId) ∧
            Live ledger installation.tables.Fact (installation.log [c])
              (.named permissionId "role:assign")) :=
  permits_iff_live (i := 0)
    (runs_schedule Commit.apply installation
      ([assignAdmin].map fun r => (r.handle .asciiOnly plainPasswords).run) [0, 0, 0, 0, 0, 0])
    rfl "role:assign" 1

end AgentCorp.Access
