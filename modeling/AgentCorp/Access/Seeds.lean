/-
  The seeding of default roles and permissions.

  * `seed_settles`: it gives the default permissions to who has the role Admin, and nothing else,
    and doing it again changes nothing.
  * `seeded_locked`: a seeded database in which nobody has a role stays closed to everyone but
    superusers, whatever requests it gets.
-/
import AgentCorp.Access.Escalation
import AgentCorp.Python.WellKeyed

namespace AgentCorp.Access

open AgentCorp.Python
open Interleaving

def defaultRoles : List String :=
  ["Admin", "Manager", "User"]

def defaultPermissions : List String :=
  ["role:create", "role:read", "role:update", "role:delete", "role:assign",
    "permission:create", "permission:read", "permission:update", "permission:delete",
    "permission:assign"]

/-! ## Rows by name -/

section Named

variable {α : Type} (column : α → String) (make : String → α)

/-- The row of a name, which is added and flushed if there is none. -/
def ensureNamed (t : Table α) (name : String) : Table α × Nat :=
  match t.first fun row => column row == name with
  | some (id, _) => (t, id)
  | none => (t.insert (make name), t.next)

/-- `for name in names`: the table, and the ids by name. -/
def ensureAll (t : Table α) (names : List String) : Table α × Dict Nat :=
  names.foldl
    (fun (t, ids) name =>
      let (t, id) := ensureNamed column make t name
      (t, ids.set name id))
    (t, [])

/-- What the loop has come to. -/
structure Ensured (t : Table α) (done : List String) (t' : Table α) (ids : Dict Nat) : Prop where
  kept : ∀ id a, t.get id = some a → t'.get id = some a
  new : ∀ id a, t'.get id = some a → t.get id = some a ∨ (t.get id = none ∧ column a ∈ done)
  unique : t'.Unique column
  keys : (ids.map Prod.fst).Nodup
  found : ∀ name ∈ done, ∃ id, ids.lookup name = some id
  named : ∀ name id, (name, id) ∈ ids → name ∈ done ∧ ∃ a, t'.get id = some a ∧ column a = name

variable {column make} {t t' : Table α} {done : List String} {ids : Dict Nat}

theorem ensured_nil (h : t.Unique column) : Ensured column t [] t [] where
  kept := fun _ _ h => h
  new := fun _ _ h => .inl h
  unique := h
  keys := List.nodup_nil
  found := fun _ hname => absurd hname List.not_mem_nil
  named := fun _ _ h => absurd h List.not_mem_nil

/-- What a name is set to. -/
theorem found_set (h : ∀ name ∈ done, ∃ id, ids.lookup name = some id) (name : String) (id : Nat) :
    ∀ name' ∈ done ++ [name], ∃ id', (ids.set name id).lookup name' = some id' := by
  intro name' hname'
  rw [lookup_set]
  split
  · exact ⟨id, rfl⟩
  · next hne =>
      refine h name' ((List.mem_append.mp hname').resolve_right fun hlast => ?_)
      exact hne (List.mem_singleton.mp hlast)

theorem ensured_step (hmake : ∀ name, column (make name) = name)
    (h : Ensured column t done t' ids) (name : String) :
    Ensured column t (done ++ [name]) (ensureNamed column make t' name).1
      (ids.set name (ensureNamed column make t' name).2) := by
  have hdone : ∀ {name'}, name' ∈ done → name' ∈ done ++ [name] := List.mem_append_left _
  have hlast : name ∈ done ++ [name] := List.mem_append_right _ (List.mem_singleton_self name)
  unfold ensureNamed
  cases hfirst : t'.first fun row => column row == name with
  | some found =>
      obtain ⟨hget, hname⟩ := Table.first_eq_some hfirst
      refine ⟨h.kept, fun id a ha => (h.new id a ha).imp_right (And.imp_right hdone), h.unique,
        nodup_set h.keys _ _, found_set h.found _ _, fun name' id hentry => ?_⟩
      rcases mem_set hentry with hold | heq
      · exact (h.named name' id hold).imp_left hdone
      · obtain ⟨rfl, rfl⟩ := Prod.mk.inj heq
        exact ⟨hlast, found.2, hget, beq_iff_eq.mp hname⟩
  | none =>
      have hfresh : ∀ id a, t'.get id = some a → column a ≠ name := fun id a ha =>
        beq_eq_false_iff_ne.mp (Table.first_eq_none_iff.mp hfirst id a ha)
      have hkept : ∀ id a, t'.get id = some a → (t'.insert (make name)).get id = some a := by
        intro id a ha
        rw [Table.get_insert, if_neg (Nat.ne_of_lt (Table.get_lt ha)), ha]
      have hnew : (t'.insert (make name)).get t'.next = some (make name) := by
        rw [Table.get_insert, if_pos rfl]
      refine ⟨fun id a ha => hkept id a (h.kept id a ha), fun id a ha => ?_,
        h.unique.insert fun id a ha => (hmake name).symm ▸ hfresh id a ha,
        nodup_set h.keys _ _, found_set h.found _ _, fun name' id hentry => ?_⟩
      · rw [Table.get_insert] at ha
        split at ha
        · next hid =>
            obtain rfl := Option.some.inj ha
            refine .inr ⟨Option.eq_none_iff_forall_ne_some.mpr fun a ha => ?_, by
              rwa [hmake]⟩
            exact absurd hid (Nat.ne_of_lt (Table.get_lt (h.kept id a ha)))
        · exact (h.new id a ha).imp_right (And.imp_right hdone)
      · rcases mem_set hentry with hold | heq
        · obtain ⟨hmem, a, ha, hname⟩ := h.named name' id hold
          exact ⟨hdone hmem, a, hkept id a ha, hname⟩
        · obtain ⟨rfl, rfl⟩ := Prod.mk.inj heq
          exact ⟨hlast, make name', hnew, hmake name'⟩

theorem ensured_ensureAll (hmake : ∀ name, column (make name) = name) (h : t.Unique column)
    (names : List String) :
    Ensured column t names (ensureAll column make t names).1
      (ensureAll column make t names).2 := by
  induction names using List.reverseRecOn with
  | nil => exact ensured_nil h
  | append_singleton names name ih =>
      have hstep : ensureAll column make t (names ++ [name]) =
          ((ensureNamed column make (ensureAll column make t names).1 name).1,
            (ensureAll column make t names).2.set name
              (ensureNamed column make (ensureAll column make t names).1 name).2) := by
        simp [ensureAll, List.foldl_append]
      rw [hstep]
      exact ensured_step hmake ih name

theorem ensureAll_of_present (names : List String)
    (h : ∀ name ∈ names, ∃ id a, t.get id = some a ∧ column a = name) :
    (ensureAll column make t names).1 = t := by
  unfold ensureAll
  suffices hids : ∀ ids : Dict Nat, (names.foldl (fun (t, ids) name =>
      let (t, id) := ensureNamed column make t name
      (t, ids.set name id)) (t, ids)).1 = t from hids []
  induction names with
  | nil => exact fun _ => rfl
  | cons name names ih =>
      intro ids
      obtain ⟨hname, hnames⟩ := List.forall_mem_cons.mp h
      have hensure : (ensureNamed column make t name).1 = t := by
        unfold ensureNamed
        split
        · rfl
        · next hnone =>
            obtain ⟨id, a, ha, heq⟩ := hname
            have hne := Table.first_eq_none_iff.mp hnone id a ha
            exact absurd heq (beq_eq_false_iff_ne.mp hne)
      rw [List.foldl_cons]
      show (names.foldl _ ((ensureNamed column make t name).1, _)).1 = t
      rw [hensure]
      exact ih hnames _

end Named

/-! ## Seeding -/

def AccessTables.seedRoles (t : AccessTables) : Table Role × Dict Nat :=
  ensureAll Role.name (fun name => { name }) t.roles defaultRoles

def AccessTables.seedPermissions (t : AccessTables) : Table Permission × Dict Nat :=
  ensureAll Permission.name (fun name => { name }) t.permissions defaultPermissions

/-- The grants that are not there. The queries do not see the rows that the loop adds. -/
def AccessTables.missingGrants (t : AccessTables) (admin : Nat) (permissionIds : Dict Nat) :
    List RolePermission :=
  (permissionIds.map fun (_, permissionId) => { roleId := admin, permissionId }).filter fun grant =>
    !t.rolePermissions.any (· == grant)

/-- `seed(db)`. -/
def AccessTables.seed (t : AccessTables) : AccessTables :=
  match t.seedRoles.2.lookup "Admin" with
  | none => t
  | some admin =>
      { t with
        roles := t.seedRoles.1
        permissions := t.seedPermissions.1
        rolePermissions :=
          t.rolePermissions.insertAll (t.missingGrants admin t.seedPermissions.2) }

section Seed

variable {t : AccessTables}

theorem ensured_seedRoles (h : t.Valid) :
    Ensured Role.name t.roles defaultRoles t.seedRoles.1 t.seedRoles.2 :=
  ensured_ensureAll (fun _ => rfl) h.roleName defaultRoles

theorem ensured_seedPermissions (h : t.Valid) :
    Ensured Permission.name t.permissions defaultPermissions t.seedPermissions.1
      t.seedPermissions.2 :=
  ensured_ensureAll (fun _ => rfl) h.permissionName defaultPermissions

theorem seedRoles_of_present
    (hroles : ∀ name ∈ defaultRoles, ∃ id role, t.roles.get id = some role ∧ role.name = name) :
    t.seedRoles.1 = t.roles :=
  ensureAll_of_present defaultRoles hroles

theorem seedPermissions_of_present
    (h : ∀ name ∈ defaultPermissions, ∃ id permission,
      t.permissions.get id = some permission ∧ permission.name = name) :
    t.seedPermissions.1 = t.permissions :=
  ensureAll_of_present defaultPermissions h

attribute [irreducible] AccessTables.seedRoles AccessTables.seedPermissions

/-- The role Admin after seeding, and the tables. -/
theorem seed_eq (h : t.Valid) : ∃ admin description,
    t.seedRoles.2.lookup "Admin" = some admin ∧
    t.seedRoles.1.get admin = some { name := "Admin", description } ∧
    t.seed = { t with
      roles := t.seedRoles.1
      permissions := t.seedPermissions.1
      rolePermissions :=
        t.rolePermissions.insertAll (t.missingGrants admin t.seedPermissions.2) } := by
  have hroles := ensured_seedRoles h
  obtain ⟨admin, hadmin⟩ := hroles.found "Admin" (by decide)
  obtain ⟨-, role, hget, hname⟩ :=
    hroles.named "Admin" admin ((Table.mem_iff_lookup hroles.keys).mpr hadmin)
  obtain ⟨name, description⟩ := role
  obtain rfl : name = "Admin" := hname
  refine ⟨admin, description, hadmin, hget, ?_⟩
  unfold AccessTables.seed
  rw [hadmin]

/-- The default permissions are what the ids are of. -/
theorem mem_permissionIds_iff (h : t.Valid) {permissionId : Nat} :
    (∃ name, (name, permissionId) ∈ t.seedPermissions.2) ↔
      ∃ permission, t.seedPermissions.1.get permissionId = some permission ∧
        permission.name ∈ defaultPermissions := by
  have hpermissions := ensured_seedPermissions h
  constructor
  · rintro ⟨name, hmem⟩
    obtain ⟨hdefault, permission, hget, rfl⟩ := hpermissions.named name permissionId hmem
    exact ⟨permission, hget, hdefault⟩
  · rintro ⟨permission, hget, hdefault⟩
    obtain ⟨id, hlookup⟩ := hpermissions.found permission.name hdefault
    have hmem := (Table.mem_iff_lookup hpermissions.keys).mpr hlookup
    obtain ⟨-, permission', hget', hname⟩ := hpermissions.named permission.name id hmem
    obtain rfl := hpermissions.unique id permissionId permission' permission hget' hget hname
    exact ⟨permission.name, hmem⟩

theorem mem_missingGrants_iff (h : t.Valid) {admin : Nat} {grant : RolePermission} :
    grant ∈ t.missingGrants admin t.seedPermissions.2 ↔
      (grant.roleId = admin ∧ ∃ permission,
        t.seedPermissions.1.get grant.permissionId = some permission ∧
          permission.name ∈ defaultPermissions) ∧ ¬ t.rolePermissions.Has grant := by
  unfold AccessTables.missingGrants
  rw [List.mem_filter, Bool.not_eq_true', ← Bool.not_eq_true, Table.any_iff]
  simp only [beq_iff_eq, exists_eq_right]
  refine and_congr_left fun _ => ?_
  rw [List.mem_map, ← mem_permissionIds_iff h]
  constructor
  · rintro ⟨⟨name, permissionId⟩, hmem, rfl⟩
    exact ⟨rfl, name, hmem⟩
  · rintro ⟨rfl, name, hmem⟩
    exact ⟨(name, grant.permissionId), hmem, rfl⟩

/-- Ids under distinct names are distinct. -/
theorem nodup_missingGrants (h : t.Valid) (admin : Nat) :
    (t.missingGrants admin t.seedPermissions.2).Nodup := by
  have hpermissions := ensured_seedPermissions h
  refine List.Nodup.filter _ ?_
  refine List.Nodup.map_on ?_ (List.Nodup.of_map _ hpermissions.keys)
  rintro ⟨name, id⟩ hmem ⟨name', id'⟩ hmem' heq
  obtain rfl : id = id' := congrArg RolePermission.permissionId heq
  obtain ⟨-, permission, hget, rfl⟩ := hpermissions.named name id hmem
  obtain ⟨-, permission', hget', rfl⟩ := hpermissions.named name' id hmem'
  rw [Option.some.inj (hget.symm.trans hget')]

theorem valid_seed (h : t.Valid) : t.seed.Valid := by
  obtain ⟨admin, description, -, hadmin, hseed⟩ := seed_eq h
  have hroles := ensured_seedRoles h
  have hpermissions := ensured_seedPermissions h
  have hadded : ∀ grant ∈ t.missingGrants admin t.seedPermissions.2,
      (∃ role, t.seedRoles.1.get grant.roleId = some role) ∧
        ∃ permission, t.seedPermissions.1.get grant.permissionId = some permission := by
    intro grant hgrant
    obtain ⟨⟨hrole, permission, hget, -⟩, -⟩ := (mem_missingGrants_iff h).mp hgrant
    exact ⟨⟨_, hrole ▸ hadmin⟩, permission, hget⟩
  have hfresh : ∀ grant ∈ t.missingGrants admin t.seedPermissions.2,
      ¬ t.rolePermissions.Has grant := fun grant hgrant =>
    ((mem_missingGrants_iff h).mp hgrant).2
  rw [hseed]
  exact { h with
    roleName := hroles.unique
    permissionName := hpermissions.unique
    rolePermission := h.rolePermission.insertAll (nodup_missingGrants h admin) hfresh
    userRoleRole := h.userRoleRole.extend hroles.kept
    permissionRole := (h.permissionRole.extend hroles.kept).insertAll
      fun grant hgrant => (hadded grant hgrant).1
    rolePermissionPermission := (h.rolePermissionPermission.extend hpermissions.kept).insertAll
      fun grant hgrant => (hadded grant hgrant).2 }

/-- The grants after seeding. -/
theorem has_seed_iff (h : t.Valid) {admin : Nat}
    (hadmin : t.seedRoles.2.lookup "Admin" = some admin) {grant : RolePermission} :
    t.seed.rolePermissions.Has grant ↔ t.rolePermissions.Has grant ∨
      (grant.roleId = admin ∧ ∃ permission,
        t.seedPermissions.1.get grant.permissionId = some permission ∧
          permission.name ∈ defaultPermissions) := by
  obtain ⟨admin', -, hadmin', -, hseed⟩ := seed_eq h
  obtain rfl : admin = admin' := Option.some.inj (hadmin.symm.trans hadmin')
  rw [hseed]
  show (t.rolePermissions.insertAll _).Has grant ↔ _
  rw [Table.has_insertAll, mem_missingGrants_iff h]
  constructor
  · rintro (⟨hnew, -⟩ | hold)
    · exact .inr hnew
    · exact .inl hold
  · rintro (hold | hnew)
    · exact .inr hold
    · by_cases hold : t.rolePermissions.Has grant
      · exact .inr hold
      · exact .inl ⟨hnew, hold⟩

end Seed

/-- The database after seeding. -/
def AccessDb.seed (db : AccessDb) : AccessDb where
  tables := db.tables.seed
  valid := valid_seed db.valid
  outcome := db.outcome

/-- What seeding gives: a user has a permission after seeding if and only if the user had it
    before, or it is a default one and the user has a role that is named Admin. -/
theorem holds_seed_iff (db : AccessDb) (userId : Nat) (name : String) :
    Holds db.seed.tables userId name ↔ Holds db.tables userId name ∨
      (name ∈ defaultPermissions ∧ ∃ roleId description,
        db.tables.userRoles.Has { userId, roleId } ∧
          db.tables.roles.get roleId = some { name := "Admin", description }) := by
  have h := db.valid
  obtain ⟨admin, description, hlookup, hadmin, hseed⟩ := seed_eq h
  have hroles := ensured_seedRoles h
  have hpermissions := ensured_seedPermissions h
  have huserRoles : db.seed.tables.userRoles = db.tables.userRoles := by
    show db.tables.seed.userRoles = _
    rw [hseed]
  have hpermissionsTable : db.seed.tables.permissions = db.tables.seedPermissions.1 := by
    show db.tables.seed.permissions = _
    rw [hseed]
  unfold Holds
  rw [huserRoles, hpermissionsTable]
  constructor
  · rintro ⟨roleId, permissionId, text, hmember, hgrant, hnamed⟩
    rcases (has_seed_iff h hlookup).mp hgrant with hold | ⟨rfl, permission, hget, hdefault⟩
    · -- A permission that is granted already was there.
      obtain ⟨permission, hget⟩ := h.rolePermissionPermission _ hold
      have hkept := hpermissions.kept permissionId permission hget
      obtain rfl := Option.some.inj (hkept.symm.trans hnamed)
      exact .inl ⟨roleId, permissionId, text, hmember, hold, hget⟩
    · obtain rfl := Option.some.inj (hget.symm.trans hnamed)
      obtain ⟨role, hrole⟩ := h.userRoleRole _ hmember
      have hkept := hroles.kept roleId role hrole
      obtain rfl := Option.some.inj (hkept.symm.trans hadmin)
      exact .inr ⟨hdefault, roleId, description, hmember, hrole⟩
  · rintro (⟨roleId, permissionId, text, hmember, hgrant, hnamed⟩ |
      ⟨hdefault, roleId, text, hmember, hrole⟩)
    · exact ⟨roleId, permissionId, text, hmember, (has_seed_iff h hlookup).mpr (.inl hgrant),
        hpermissions.kept _ _ hnamed⟩
    · have hsame := hroles.unique roleId admin _ _ (hroles.kept _ _ hrole) hadmin rfl
      subst hsame
      obtain ⟨permissionId, hid⟩ := hpermissions.found name hdefault
      obtain ⟨-, permission, hget, rfl⟩ := hpermissions.named name permissionId
        ((Table.mem_iff_lookup hpermissions.keys).mpr hid)
      refine ⟨roleId, permissionId, permission.description, hmember, ?_, hget⟩
      exact (has_seed_iff h hlookup).mpr (.inr ⟨rfl, permission, hget, hdefault⟩)

/-- Seeding finds its own rows. -/
theorem seed_tables_seed {t : AccessTables} (h : t.Valid) : t.seed.seed = t.seed := by
  obtain ⟨admin, description, hlookup, hadmin, hseed⟩ := seed_eq h
  obtain ⟨admin', description', hlookup', hadmin', hseed'⟩ := seed_eq (valid_seed h)
  have hroles := ensured_seedRoles h
  have hpermissions := ensured_seedPermissions h
  have hrolesTable : t.seed.roles = t.seedRoles.1 := by rw [hseed]
  have hpermissionsTable : t.seed.permissions = t.seedPermissions.1 := by rw [hseed]
  have hrolesAgain : t.seed.seedRoles.1 = t.seed.roles := by
    refine seedRoles_of_present fun name hname => ?_
    obtain ⟨id, hid⟩ := hroles.found name hname
    obtain ⟨-, role, hget, heq⟩ :=
      hroles.named name id ((Table.mem_iff_lookup hroles.keys).mpr hid)
    exact ⟨id, role, hrolesTable ▸ hget, heq⟩
  have hpermissionsAgain : t.seed.seedPermissions.1 = t.seed.permissions := by
    refine seedPermissions_of_present fun name hname => ?_
    obtain ⟨id, hid⟩ := hpermissions.found name hname
    obtain ⟨-, permission, hget, heq⟩ :=
      hpermissions.named name id ((Table.mem_iff_lookup hpermissions.keys).mpr hid)
    exact ⟨id, permission, hpermissionsTable ▸ hget, heq⟩
  have hsame : admin' = admin := by
    rw [hrolesAgain, hrolesTable] at hadmin'
    exact hroles.unique admin' admin _ _ hadmin' hadmin rfl
  have hgrants : t.seed.missingGrants admin' t.seed.seedPermissions.2 = [] := by
    refine List.eq_nil_iff_forall_not_mem.mpr fun grant hgrant => ?_
    obtain ⟨⟨hrole, permission, hget, hdefault⟩, hmissing⟩ :=
      (mem_missingGrants_iff (valid_seed h)).mp hgrant
    rw [hpermissionsAgain, hpermissionsTable] at hget
    exact hmissing ((has_seed_iff h hlookup).mpr
      (.inr ⟨hrole.trans hsame, permission, hget, hdefault⟩))
  rw [hseed', hrolesAgain, hpermissionsAgain, hgrants]
  rfl

/-- **Seeding.** Once done, doing it again changes nothing, and a user has a permission if and only
    if the user had it before, or it is a default one and the user has a role named Admin. -/
theorem seed_settles (db : AccessDb) : db.seed.seed = db.seed ∧ ∀ userId name,
    Holds db.seed.tables userId name ↔ Holds db.tables userId name ∨
      (name ∈ defaultPermissions ∧ ∃ roleId description,
        db.tables.userRoles.Has { userId, roleId } ∧
          db.tables.roles.get roleId = some { name := "Admin", description }) := by
  refine ⟨?_, holds_seed_iff db⟩
  have htables := seed_tables_seed db.valid
  unfold AccessDb.seed
  congr 1

/-! ## A new installation -/

/-- Nobody has a role, and nobody is a superuser. -/
structure Unassigned (db : AccessDb) : Prop where
  roles : ∀ row, ¬ db.tables.userRoles.Has row
  superusers : ∀ userId user, db.tables.users.get userId = some user → user.isSuperuser = false

/-- **A new installation is locked.** Where nobody has a role and nobody is a superuser, no
    interleaving of requests after seeding lets anyone through a permission check. -/
theorem seeded_locked {lower : Lower} {passwords : Passwords} {requests : List Request}
    {db : AccessDb} (h : Unassigned db) {trace : List (Commit × AccessDb)}
    (hrun : Runs Commit.apply db.seed (requests.map fun r => (r.handle lower passwords).run)
      trace) :
    ∀ step ∈ trace, ∀ userId name, ¬ ∃ current,
      (Raising.alone Commit.apply (requirePermission name (some userId)) step.2).1 =
        .ok current := by
  have husers : db.seed.tables.users = db.tables.users := by
    obtain ⟨admin, description, -, -, hseed⟩ := seed_eq db.valid
    show db.tables.seed.users = _
    rw [hseed]
  have hnobody : ∀ userId name, ¬ Holds db.seed.tables userId name := by
    intro userId name hholds
    rcases (holds_seed_iff db userId name).mp hholds with ⟨roleId, -, -, hmember, -⟩ |
      ⟨-, roleId, -, hmember, -⟩
    · exact h.roles _ hmember
    · exact h.roles _ hmember
  have hnone : NoGiver db.seed requests :=
    ⟨fun _ _ userId user _ hget => h.superusers userId user (husers ▸ hget),
      fun _ _ userId _ name _ => hnobody userId name⟩
  intro step hstep userId name hok
  have hshrunk := shrunk_of_runs hnone hrun step hstep
  obtain ⟨user, hget, -, hsuper | hholds⟩ := (requirePermission_ok_iff name userId step.2).mp hok
  · obtain ⟨user', hget', hsuper'⟩ := hshrunk.superusers userId user hget hsuper
    rw [h.superusers userId user' (husers ▸ hget')] at hsuper'
    cases hsuper'
  · exact hnobody userId name (hshrunk.holds userId name hholds)

/-- A database with one account. -/
def oneAccount : AccessDb :=
  AccessDb.empty.after
    [⟨0, .insertUser { fullName := "Ada", email := "ada@corp.io", passwordHash := "hash" }⟩]

/-- Its owner asks for the first role, before and after a registration. -/
def appointments : List Request :=
  [{ id := 1, caller := some 0, salt := 0, endpoint := .assignRole 0 0 },
    { id := 2, caller := none, salt := 0
      endpoint := .register ⟨"Eve", "Eve@corp.io", "12345678"⟩ },
    { id := 3, caller := some 0, salt := 0, endpoint := .assignRole 1 0 }]

theorem unassigned_oneAccount : Unassigned oneAccount where
  roles := by
    rintro row ⟨id, hrow⟩
    have hrows : oneAccount.tables.userRoles.rows = [] := rfl
    rw [← Table.mem_rows_iff, hrows] at hrow
    cases hrow
  superusers := by
    intro userId user hget
    have hrows : oneAccount.tables.users.rows =
        [(0, { fullName := "Ada", email := "ada@corp.io", passwordHash := "hash" })] := rfl
    rw [← Table.mem_rows_iff, hrows, List.mem_singleton] at hget
    cases hget
    rfl

theorem seeded_locked_oneAccount : Unassigned oneAccount ∧
    ∀ step ∈ schedule Commit.apply oneAccount.seed
        (appointments.map fun r => (r.handle .asciiOnly plainPasswords).run)
        [0, 1, 0, 1, 1, 0, 2, 1, 2, 2],
      ∀ userId name, ¬ ∃ current,
        (Raising.alone Commit.apply (requirePermission name (some userId)) step.2).1 =
          .ok current :=
  ⟨unassigned_oneAccount, seeded_locked unassigned_oneAccount (runs_schedule ..)⟩

end AgentCorp.Access
