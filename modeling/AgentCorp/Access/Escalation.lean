/-
  What requests cannot reach, in any interleaving.

  * `permissions_only_shrink`: callers of whom nobody is a superuser or may assign roles, grant
    permissions or rename them cannot give anyone a permission.
  * `organizations_of_others_kept`: callers outside an organization, none of them a superuser,
    change neither its row nor its members, and are not shown it as such.
-/
import AgentCorp.Access.AuditTrail

namespace AgentCorp.Access

open AgentCorp.Python
open Interleaving

variable {lower : Lower} {passwords : Passwords} {requests : List Request} {start db : AccessDb}
  {seen : AccessDb → Prop} {c : Commit}

/-- Every commit is authorized, whatever requests run beside each other. -/
theorem justified_requests {trace : List (Commit × AccessDb)}
    (hrun : Runs Commit.apply start (requests.map fun r => (r.handle lower passwords).run) trace) :
    Justified Commit.apply (authorizedFor lower passwords requests) (fun db => db = start) start trace := by
  refine justified_of_runs (authorizedFor_mono lower passwords requests) hrun rfl ?_
  intro prog hprog
  obtain ⟨r, hr, rfl⟩ := List.mem_map.mp hprog
  have hprog : Guarded (authorizedFor lower passwords requests) (fun _ _ => True) (fun db => db = start)
      (r.handle lower passwords) := guarded_handle hr
  exact Based.imp hprog fun _ _ _ => trivial

/-- **Every commit is authorized.** In any interleaving of requests, each commit is one of a request
    that may write this: it adds an ordinary user, or its caller was active, and a superuser or
    the holder of the permission that the write asks for and a member of the organization that it
    is about, in states that were there before. -/
theorem commits_authorized {trace : List (Commit × AccessDb)}
    (hrun : Runs Commit.apply start (requests.map fun r => (r.handle lower passwords).run) trace)
    {i : Nat} {s : AccessDb} (hi : (trace)[i]? = some (c, s)) :
    ∃ r ∈ requests, r.id = c.request ∧
      Authorized lower passwords r (fun db => db = start ∨ ∃ step ∈ trace.take i, step.2 = db) c.write :=
  (justified_requests hrun).good_at (authorizedFor_mono lower passwords requests) hi

theorem commits_authorized_installation :
    let c : Commit := ⟨1, .insertUserRole { userId := 1, roleId := 0 }⟩
    ∃ r ∈ [assignAdmin], r.id = 1 ∧
      Authorized .asciiOnly plainPasswords r
        (fun db => db = installation ∨ ∃ step ∈ ([] : List (Commit × AccessDb)), step.2 = db)
        c.write :=
  commits_authorized (i := 0) (s := (⟨1, .insertUserRole ⟨1, 0⟩⟩ : Commit).apply installation)
    (runs_schedule Commit.apply installation
      ([assignAdmin].map fun r => (r.handle .asciiOnly plainPasswords).run) [0, 0, 0, 0, 0, 0])
    rfl

/-! ## Superusers -/

/-- Who is a superuser was one from the start. -/
def SuperusersFrom (start db : AccessDb) : Prop :=
  ∀ userId user, db.tables.users.get userId = some user → user.isSuperuser = true →
    ∃ user', start.tables.users.get userId = some user' ∧ user'.isSuperuser = true

/-- No caller was a superuser at the start. -/
def NoSuperuser (start : AccessDb) (requests : List Request) : Prop :=
  ∀ r ∈ requests, ∀ userId user, r.caller = some userId →
    start.tables.users.get userId = some user → user.isSuperuser = false

theorem users_apply {t : AccessTables} {w : Write} (h : w.newUser = none) :
    (w.apply t).users = t.users := by
  cases w with
  | insertUser row => cases h
  | _ => rfl

theorem superusers_commit (hdb : SuperusersFrom start db) (hc : authorizedFor lower passwords requests seen c) :
    SuperusersFrom start (c.apply db) := by
  intro userId user hget hsuper
  rw [Commit.tables_apply] at hget
  split at hget
  · obtain ⟨r, -, -, hauthorized⟩ := hc
    cases hw : c.write with
    | insertUser row =>
        rw [hw] at hget
        change (db.tables.users.insert row).get userId = some user at hget
        rw [Table.get_insert] at hget
        split at hget
        · obtain rfl := Option.some.inj hget
          rw [(hauthorized.account row (by rw [hw]; rfl)).ordinary.1] at hsuper
          cases hsuper
        · exact hdb userId user hget hsuper
    | _ =>
        rw [users_apply (by rw [hw]; rfl)] at hget
        exact hdb userId user hget hsuper
  · exact hdb userId user hget hsuper

/-- A caller who is let in is not a superuser, if nobody is. -/
theorem not_superuser_of_letIn (hnone : NoSuperuser start requests)
    (hseen : ∀ db, seen db → SuperusersFrom start db) {r : Request} (hr : r ∈ requests)
    {userId : Nat} {user : User} {name : Option String} (hcaller : r.caller = some userId)
    (hin : LetIn seen name userId user) : user.isSuperuser = false := by
  by_contra hsuper
  rw [Bool.not_eq_false] at hsuper
  obtain ⟨db, hdb, hget⟩ := hin.there
  obtain ⟨user', hget', hsuper'⟩ := hseen db hdb userId user hget hsuper
  rw [hnone r hr userId user' hcaller hget'] at hsuper'
  cases hsuper'

/-! ## Permissions -/

/-- The permissions that let a caller give permissions to others. -/
def givingPermissions : List String :=
  ["role:assign", "permission:assign", "permission:update"]

/-- No caller could give permissions at the start. -/
def NoGiver (start : AccessDb) (requests : List Request) : Prop :=
  NoSuperuser start requests ∧ ∀ r ∈ requests, ∀ userId, r.caller = some userId →
    ∀ name ∈ givingPermissions, ¬ Holds start.tables userId name

/-- Nobody has more than at the start. -/
structure Shrunk (start db : AccessDb) : Prop where
  superusers : SuperusersFrom start db
  holds : ∀ userId name, Holds db.tables userId name → Holds start.tables userId name

/-- A write that adds a fact, beyond the name of a new permission, takes a giving permission. -/
theorem giving_of_adds {t : AccessTables} {w : Write} {f : Access.Fact}
    (hadds : (w.effect t).Adds f) :
    (∃ name, w.permission = some name ∧ name ∈ givingPermissions) ∨
      ∃ row, w = .insertPermission row ∧ f = .named t.permissions.next row.name := by
  cases w with
  | insertUserRole row => exact .inl ⟨_, rfl, by decide⟩
  | insertRolePermission row => exact .inl ⟨_, rfl, by decide⟩
  | updatePermission id changes => exact .inl ⟨_, rfl, by decide⟩
  | insertPermission row => exact .inr ⟨row, rfl, hadds⟩
  | deleteUserRole id =>
      simp only [Write.effect] at hadds
      split at hadds <;> exact absurd hadds not_false
  | deleteRolePermission id =>
      simp only [Write.effect] at hadds
      split at hadds <;> exact absurd hadds not_false
  | insertUser _ | insertRole _ | updateRole _ _ | deleteRole _ | deletePermission _
  | insertOrganization _ | updateOrganization _ _ | deleteOrganization _
  | insertOrganizationMember _ | deleteOrganizationMember _ => exact absurd hadds id

/-- Other writes give nobody a permission: no role has a permission that is new. -/
theorem holds_of_not_giving {t : AccessTables} (hvalid : t.Valid) {w : Write}
    (h : ∀ name, w.permission = some name → name ∉ givingPermissions) {userId : Nat}
    {name : String} (hholds : Holds (w.apply t) userId name) : Holds t userId name := by
  obtain ⟨roleId, permissionId, hmember, hgrants, hnamed⟩ := holds_iff_fact.mp hholds
  have hold : ∀ f, (w.apply t).Fact f → t.Fact f ∨
      ∃ row, w = .insertPermission row ∧ f = .named t.permissions.next row.name := by
    intro f hf
    rcases (fact_write hvalid w).mp hf with hadds | ⟨hf, -⟩
    · rcases giving_of_adds hadds with ⟨name, hname, hgiving⟩ | hnew
      · exact absurd hgiving (h name hname)
      · exact .inr hnew
    · exact .inl hf
  have hmember' : t.Fact (.member userId roleId) :=
    (hold _ hmember).resolve_right fun ⟨_, _, heq⟩ => nomatch heq
  have hgrants' : t.Fact (.grants roleId permissionId) :=
    (hold _ hgrants).resolve_right fun ⟨_, _, heq⟩ => nomatch heq
  refine holds_iff_fact.mpr ⟨roleId, permissionId, hmember', hgrants', ?_⟩
  rcases hold _ hnamed with hnamed | ⟨row, -, heq⟩
  · exact hnamed
  · obtain ⟨rfl, -⟩ := Fact.named.inj heq
    obtain ⟨permission, hget⟩ := hvalid.rolePermissionPermission _ hgrants'
    exact absurd rfl (Nat.ne_of_lt (Table.get_lt hget))

theorem shrunk_commit (hnone : NoGiver start requests) (hseen : ∀ db, seen db → Shrunk start db)
    (hdb : Shrunk start db) (hc : authorizedFor lower passwords requests seen c) :
    Shrunk start (c.apply db) where
  superusers := superusers_commit hdb.superusers hc
  holds := by
    intro userId name hholds
    rw [Commit.tables_apply] at hholds
    split at hholds
    · refine hdb.holds userId name (holds_of_not_giving db.valid ?_ hholds)
      intro p hp hgiving
      obtain ⟨r, hr, -, hauthorized⟩ := hc
      have hold : c.write.newUser = none := by
        cases hw : c.write with
        | insertUser row =>
            rw [hw] at hp
            cases hp
        | _ => rfl
      obtain ⟨callerId, caller, hcaller, hby⟩ := hauthorized.authorized hold
      have hordinary := not_superuser_of_letIn hnone.1 (fun db hdb => (hseen db hdb).superusers)
        hr hcaller hby.toLetIn
      rcases hby.permitted p hp with hsuper | ⟨db', hdb', hholds'⟩
      · rw [hordinary] at hsuper
        cases hsuper
      · exact hnone.2 r hr callerId hcaller p hgiving ((hseen db' hdb').holds callerId p hholds')
    · exact hdb.holds userId name hholds

theorem shrunk_of_runs (hnone : NoGiver start requests)
    {trace : List (Commit × AccessDb)}
    (hrun : Runs Commit.apply start (requests.map fun r => (r.handle lower passwords).run) trace) :
    ∀ step ∈ trace, Shrunk start step.2 := by
  have hstart : Shrunk start start :=
    ⟨fun _ user hget hsuper => ⟨user, hget, hsuper⟩, fun _ _ h => h⟩
  refine (justified_requests hrun).invariant ?_ (fun db hdb => hdb ▸ hstart) hstart
  exact fun seen db c hseen hdb hc => shrunk_commit hnone hseen hdb hc

/-- **No escalation.** If no caller is a superuser or may assign roles, grant permissions or rename
    them, then no interleaving of their requests gives anyone a permission: whom a check lets in
    was a superuser or had the permission at the start. -/
theorem permissions_only_shrink (hnone : NoGiver start requests)
    {trace : List (Commit × AccessDb)}
    (hrun : Runs Commit.apply start (requests.map fun r => (r.handle lower passwords).run) trace) :
    ∀ step ∈ trace, ∀ userId name,
      (∃ current, (Raising.alone Commit.apply (requirePermission name (some userId)) step.2).1 =
        .ok current) →
      (∃ user, start.tables.users.get userId = some user ∧ user.isSuperuser = true) ∨
        Holds start.tables userId name := by
  intro step hstep userId name hok
  have hshrunk := shrunk_of_runs hnone hrun step hstep
  obtain ⟨user, hget, -, hsuper | hholds⟩ := (requirePermission_ok_iff name userId step.2).mp hok
  · exact .inl (hshrunk.superusers userId user hget hsuper)
  · exact .inr (hshrunk.holds userId name hholds)

/-- Attempts of the user without roles, and of nobody in particular. -/
def attempts : List Request :=
  [{ id := 1, caller := some 1, salt := 0, endpoint := .assignRole 1 0 },
    { id := 2, caller := none, salt := 0
      endpoint := .register ⟨"Eve", "Eve@corp.io", "12345678"⟩ },
    { id := 3, caller := some 1, salt := 0, endpoint := .removeMember 0 0 }]

theorem caller_attempts {r : Request} (hr : r ∈ attempts) {userId : Nat}
    (hcaller : r.caller = some userId) : userId = 1 := by
  simp only [attempts, List.mem_cons, List.not_mem_nil, or_false] at hr
  rcases hr with rfl | rfl | rfl
  · exact (Option.some.inj hcaller).symm
  · cases hcaller
  · exact (Option.some.inj hcaller).symm

theorem noSuperuser_attempts : NoSuperuser installation attempts := by
  intro r hr userId user hcaller hget
  obtain rfl := caller_attempts hr hcaller
  obtain rfl := Option.some.inj hget
  rfl

theorem noGiver_attempts : NoGiver installation attempts := by
  refine ⟨noSuperuser_attempts, fun r hr userId hcaller name _ hholds => ?_⟩
  obtain rfl := caller_attempts hr hcaller
  obtain ⟨roleId, -, -, ⟨id, hmember⟩, -⟩ := hholds
  have hrows : installation.tables.userRoles.rows = [(0, { userId := 0, roleId := 0 })] := rfl
  rw [← Table.mem_rows_iff, hrows, List.mem_singleton] at hmember
  cases hmember

theorem permissions_only_shrink_installation : NoGiver installation attempts ∧
    ∀ step ∈ schedule Commit.apply installation
        (attempts.map fun r => (r.handle .asciiOnly plainPasswords).run) [0, 1, 2, 0, 1, 1, 2],
      ∀ userId name,
        (∃ current, (Raising.alone Commit.apply (requirePermission name (some userId)) step.2).1 =
          .ok current) →
        (∃ user, installation.tables.users.get userId = some user ∧ user.isSuperuser = true) ∨
          Holds installation.tables userId name :=
  ⟨noGiver_attempts, permissions_only_shrink noGiver_attempts (runs_schedule ..)⟩

/-! ## Organizations -/

/-- No caller was a member of the organization at the start. -/
def Outsiders (start : AccessDb) (requests : List Request) (organizationId : Nat) : Prop :=
  NoSuperuser start requests ∧ ∀ r ∈ requests, ∀ userId, r.caller = some userId →
    ¬ start.tables.organizationMembers.Has { organizationId, userId }

/-- The organization has its row, if it had one, and its members. -/
structure Untouched (organizationId : Nat) (start db : AccessDb) : Prop where
  superusers : SuperusersFrom start db
  row : ∀ row, start.tables.organizations.get organizationId = some row →
    db.tables.organizations.get organizationId = some row
  members : ∀ id userId,
    db.tables.organizationMembers.get id = some { organizationId, userId } ↔
      start.tables.organizationMembers.get id = some { organizationId, userId }

theorem Untouched.has_iff {organizationId : Nat} (h : Untouched organizationId start db)
    (userId : Nat) : db.tables.organizationMembers.Has { organizationId, userId } ↔
      start.tables.organizationMembers.Has { organizationId, userId } :=
  exists_congr fun id => h.members id userId

section Organization

variable {t : AccessTables} {w : Write} {organizationId : Nat}

theorem organization_of_not_concerns (h : ¬ w.Concerns t organizationId) {row : Organization}
    (hrow : t.organizations.get organizationId = some row) :
    (w.apply t).organizations.get organizationId = some row := by
  cases w with
  | insertOrganization new =>
      show (t.organizations.insert new).get organizationId = _
      rw [Table.get_insert, if_neg (Nat.ne_of_lt (Table.get_lt hrow)), hrow]
  | updateOrganization id changes =>
      have hne : organizationId ≠ id := by
        rintro rfl
        exact h (.updateOrganization organizationId changes)
      show (t.organizations.modify id _).get organizationId = _
      rw [Table.get_modify, if_neg hne, hrow]
  | deleteOrganization id =>
      have hne : organizationId ≠ id := by
        rintro rfl
        exact h (.deleteOrganization organizationId)
      exact (Table.get_delete id organizationId row).mpr ⟨hrow, hne⟩
  | _ => exact hrow

theorem members_of_not_concerns (h : ¬ w.Concerns t organizationId) (id userId : Nat) :
    (w.apply t).organizationMembers.get id = some { organizationId, userId } ↔
      t.organizationMembers.get id = some { organizationId, userId } := by
  cases w with
  | insertOrganizationMember new =>
      have hne : new ≠ { organizationId, userId } := by
        rintro rfl
        exact h (.insertOrganizationMember _)
      show (t.organizationMembers.insert new).get id = _ ↔ _
      rw [Table.get_insert]
      split
      · next hid =>
          constructor
          · exact fun heq => absurd (Option.some.inj heq) hne
          · exact fun hget => absurd hid (Nat.ne_of_lt (Table.get_lt hget))
      · rfl
  | deleteOrganizationMember id' =>
      show (t.organizationMembers.delete id').get id = _ ↔ _
      rw [Table.get_delete]
      refine and_iff_left_of_imp fun hget heq => ?_
      exact h (.deleteOrganizationMember (heq ▸ hget))
  | deleteOrganization id' =>
      have hne : organizationId ≠ id' := by
        rintro rfl
        exact h (.deleteOrganization organizationId)
      show (t.organizationMembers.deleteWhere _).get id = _ ↔ _
      rw [Table.get_deleteWhere]
      exact and_iff_left (beq_eq_false_iff_ne.mpr hne)
  | _ => rfl

end Organization

/-- What is about an organization adds no user. -/
theorem newUser_of_concerns {t : AccessTables} {w : Write} {organizationId : Nat}
    (h : w.Concerns t organizationId) : w.newUser = none ∧ w.inOrganization = true := by
  cases h <;> exact ⟨rfl, rfl⟩

/-- A write is about one organization, whenever it is looked at. -/
theorem concerns_eq {organizationId other : Nat} {db db' : AccessDb} {w : Write}
    (hdb : Untouched organizationId start db) (hdb' : Untouched organizationId start db')
    (h : w.Concerns db.tables organizationId) (h' : w.Concerns db'.tables other) :
    other = organizationId := by
  cases h with
  | updateOrganization _ changes => cases h'; rfl
  | deleteOrganization => cases h'; rfl
  | insertOrganizationMember row => cases h'; rfl
  | @deleteOrganizationMember id row hrow =>
      cases h' with
      | @deleteOrganizationMember _ row' hrow' =>
          have hrow : db'.tables.organizationMembers.get id = some row :=
            (hdb'.members id row.userId).mpr ((hdb.members id row.userId).mp hrow)
          rw [Option.some.inj (hrow'.symm.trans hrow)]

theorem untouched_commit {organizationId : Nat} (hout : Outsiders start requests organizationId)
    (hseen : ∀ db, seen db → Untouched organizationId start db)
    (hdb : Untouched organizationId start db) (hc : authorizedFor lower passwords requests seen c) :
    Untouched organizationId start (c.apply db) := by
  have hnot : ¬ c.write.Concerns db.tables organizationId := by
    intro hconcerns
    obtain ⟨r, hr, -, hauthorized⟩ := hc
    obtain ⟨callerId, caller, hcaller, hby⟩ :=
      hauthorized.authorized (newUser_of_concerns hconcerns).1
    obtain ⟨db', other, hdb', hconcerns', hbelongs⟩ :=
      hby.belongs (newUser_of_concerns hconcerns).2
    obtain rfl := concerns_eq hdb (hseen db' hdb') hconcerns hconcerns'
    rcases hbelongs with hsuper | ⟨db'', hdb'', hmember⟩
    · rw [not_superuser_of_letIn hout.1 (fun db hdb => (hseen db hdb).superusers) hr hcaller
        hby.toLetIn] at hsuper
      cases hsuper
    · exact hout.2 r hr callerId hcaller (((hseen db'' hdb'').has_iff callerId).mp hmember)
  refine ⟨superusers_commit hdb.superusers hc, fun row hrow => ?_, fun id userId => ?_⟩
  · rw [Commit.tables_apply]
    split
    · exact organization_of_not_concerns hnot (hdb.row row hrow)
    · exact hdb.row row hrow
  · rw [Commit.tables_apply]
    split
    · exact (members_of_not_concerns hnot id userId).trans (hdb.members id userId)
    · exact hdb.members id userId

theorem untouched_of_runs {organizationId : Nat} (hout : Outsiders start requests organizationId)
    {trace : List (Commit × AccessDb)}
    (hrun : Runs Commit.apply start (requests.map fun r => (r.handle lower passwords).run) trace) :
    ∀ step ∈ trace, Untouched organizationId start step.2 := by
  have hstart : Untouched organizationId start start :=
    ⟨fun _ user hget hsuper => ⟨user, hget, hsuper⟩, fun _ h => h, fun _ _ => Iff.rfl⟩
  refine (justified_requests hrun).invariant ?_ (fun db hdb => hdb ▸ hstart) hstart
  exact fun seen db c hseen hdb hc => untouched_commit hout hseen hdb hc

/-- Whom an endpoint for one organization answers. -/
theorem inside_of_ok {organizationId userId : Nat} {reply : Reply}
    {f : Nat × User → Session Reply}
    (h : (Raising.alone Commit.apply (do
      let currentUser ← getCurrentActiveUser (some userId)
      verifyOrganizationMembership organizationId currentUser
      f currentUser) db).1 = .ok reply) :
    ∃ user, db.tables.users.get userId = some user ∧ (user.isSuperuser = true ∨
      db.tables.organizationMembers.Has { organizationId, userId }) := by
  unfold getCurrentActiveUser getCurrentUser verifyOrganizationMembership at h
  simp only [Raising.alone_bind, alone_query] at h
  cases hget : db.tables.users.get userId with
  | none =>
      rw [hget] at h
      cases h
  | some user =>
      refine ⟨user, rfl, ?_⟩
      rw [← first_isSome]
      by_contra hnot
      rw [not_or, Bool.not_eq_true, Bool.not_eq_true, Option.isSome_eq_false_iff,
        Option.isNone_iff_eq_none] at hnot
      cases hactive : user.isActive <;>
        simp [hget, hactive, hnot.1, hnot.2, Raising.alone_bind, alone_query] at h

/-- Whom the list of all organizations is shown to. -/
theorem reader_of_listOrganizations {userId : Nat} {reply : Reply}
    (h : (Raising.alone Commit.apply (listOrganizations (some userId)) db).1 = .ok reply) :
    ∃ user, db.tables.users.get userId = some user ∧
      (user.isSuperuser = true ∨ Holds db.tables userId "organization:read") := by
  have hok : ∃ current,
      (Raising.alone Commit.apply (requirePermission "organization:read" (some userId)) db).1 =
        .ok current := by
    unfold listOrganizations at h
    rw [Raising.alone_bind] at h
    cases hcheck : Raising.alone Commit.apply (requirePermission "organization:read"
        (some userId)) db with
    | mk result db' =>
        cases result with
        | ok current => exact ⟨current, rfl⟩
        | error exc =>
            rw [hcheck] at h
            cases h
  obtain ⟨user, hget, -, hpermitted⟩ := (requirePermission_ok_iff ..).mp hok
  exact ⟨user, hget, hpermitted⟩

/-- The reads of one organization are refused to the callers, and the list of all of them is
    shown only to those who may read all of them. -/
structure Hidden (organizationId : Nat) (requests : List Request) (db : AccessDb) : Prop where
  organization : ∀ r ∈ requests, ¬ ∃ reply,
    (Raising.alone Commit.apply (getOrganization r.caller organizationId) db).1 = .ok reply
  members : ∀ r ∈ requests, ¬ ∃ reply,
    (Raising.alone Commit.apply (listMembers r.caller organizationId) db).1 = .ok reply
  list : ∀ r ∈ requests, (∃ reply,
    (Raising.alone Commit.apply (listOrganizations r.caller) db).1 = .ok reply) →
      ∃ userId, r.caller = some userId ∧ Holds db.tables userId "organization:read"

theorem Untouched.hidden {organizationId : Nat} (h : Untouched organizationId start db)
    (hout : Outsiders start requests organizationId) : Hidden organizationId requests db := by
  have hordinary : ∀ r ∈ requests, ∀ userId user, r.caller = some userId →
      db.tables.users.get userId = some user → user.isSuperuser ≠ true := by
    intro r hr userId user hcaller hget hsuper
    obtain ⟨user', hget', hsuper'⟩ := h.superusers userId user hget hsuper
    rw [hout.1 r hr userId user' hcaller hget'] at hsuper'
    cases hsuper'
  have houtside : ∀ r ∈ requests, ∀ userId, r.caller = some userId → ∀ user,
      db.tables.users.get userId = some user →
      ¬ (user.isSuperuser = true ∨
        db.tables.organizationMembers.Has { organizationId, userId }) := by
    rintro r hr userId hcaller user hget (hsuper | hmember)
    · exact hordinary r hr userId user hcaller hget hsuper
    · exact hout.2 r hr userId hcaller ((h.has_iff userId).mp hmember)
  have hrefused : ∀ r ∈ requests, ∀ f : Nat × User → Session Reply, ¬ ∃ reply,
      (Raising.alone Commit.apply (do
        let currentUser ← getCurrentActiveUser r.caller
        verifyOrganizationMembership organizationId currentUser
        f currentUser) db).1 = .ok reply := by
    rintro r hr f ⟨reply, hreply⟩
    cases hcaller : r.caller with
    | none =>
        rw [hcaller] at hreply
        cases hreply
    | some userId =>
        rw [hcaller] at hreply
        obtain ⟨user, hget, hinside⟩ := inside_of_ok hreply
        exact houtside r hr userId hcaller user hget hinside
  refine ⟨fun r hr => hrefused r hr _, fun r hr => hrefused r hr _,
    fun r hr ⟨reply, hreply⟩ => ?_⟩
  cases hcaller : r.caller with
  | none =>
      rw [hcaller] at hreply
      cases hreply
  | some userId =>
      rw [hcaller] at hreply
      obtain ⟨user, hget, hpermitted⟩ := reader_of_listOrganizations hreply
      refine ⟨userId, rfl, hpermitted.resolve_left ?_⟩
      exact hordinary r hr userId user hcaller hget

/-- **Organizations are their members'.** If no caller is a superuser or a member of an
    organization, then no interleaving of their requests changes its row or its members, and the
    endpoints that read the organization refuse them. One that has no members stays so. Only a
    caller who may read all organizations finds it in the list of them. -/
theorem organizations_of_others_kept {organizationId : Nat}
    (hout : Outsiders start requests organizationId) {trace : List (Commit × AccessDb)}
    (hrun : Runs Commit.apply start (requests.map fun r => (r.handle lower passwords).run) trace) :
    ∀ step ∈ trace,
      (∀ row, start.tables.organizations.get organizationId = some row →
        step.2.tables.organizations.get organizationId = some row) ∧
      (∀ userId, step.2.tables.organizationMembers.Has { organizationId, userId } ↔
        start.tables.organizationMembers.Has { organizationId, userId }) ∧
      Hidden organizationId requests step.2 := by
  intro step hstep
  have hkept := untouched_of_runs hout hrun step hstep
  exact ⟨hkept.row, hkept.has_iff, hkept.hidden hout⟩

theorem outsiders_attempts : Outsiders installation attempts 0 := by
  refine ⟨noSuperuser_attempts, fun r hr userId hcaller ⟨id, hmember⟩ => ?_⟩
  obtain rfl := caller_attempts hr hcaller
  have hrows : installation.tables.organizationMembers.rows =
      [(0, { organizationId := 0, userId := 0 })] := rfl
  rw [← Table.mem_rows_iff, hrows, List.mem_singleton] at hmember
  cases hmember

theorem organizations_of_others_kept_installation : Outsiders installation attempts 0 ∧
    ∀ step ∈ schedule Commit.apply installation
        (attempts.map fun r => (r.handle .asciiOnly plainPasswords).run) [0, 1, 2, 0, 1, 1, 2],
      (∀ row, installation.tables.organizations.get 0 = some row →
        step.2.tables.organizations.get 0 = some row) ∧
      (∀ userId, step.2.tables.organizationMembers.Has { organizationId := 0, userId } ↔
        installation.tables.organizationMembers.Has { organizationId := 0, userId }) ∧
      Hidden 0 attempts step.2 :=
  ⟨outsiders_attempts, organizations_of_others_kept outsiders_attempts (runs_schedule ..)⟩

end AgentCorp.Access
