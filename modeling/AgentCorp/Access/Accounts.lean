/-
  Which credentials log in to an account.

  `register` stores an e-mail address stripped and in lower case, `create_user` as it is given, and
  `login` looks for the address stripped and in lower case.

  * `login_iff`: who logs in, in one state.
  * `accounts_reachable`: what an account is good for, from its creation on in any interleaving.
-/
import AgentCorp.Access.Escalation

namespace AgentCorp.Access

open AgentCorp.Python
open Interleaving

variable {lower : Lower} {passwords : Passwords} {requests : List Request} {start db : AccessDb}

theorem login_iff (email password : String) (userId : Nat) :
    (Raising.alone Commit.apply (login lower passwords email password) db).1 = .ok (.token userId) ↔
      ∃ user, db.tables.users.get userId = some user ∧ user.email = normalized lower email ∧
        user.isActive = true ∧ passwords.verify password user.passwordHash = true := by
  have hunique := db.valid.email
  unfold login AuthService.login
  simp only [Raising.alone_bind, alone_query]
  cases hfirst : db.tables.users.first fun user => user.email == normalized lower email with
  | none =>
      refine iff_of_false nofun ?_
      rintro ⟨user, hget, hemail, -⟩
      have hne := Table.first_eq_none_iff.mp hfirst userId user hget
      exact absurd hemail (beq_eq_false_iff_ne.mp hne)
  | some found =>
      obtain ⟨id, user⟩ := found
      obtain ⟨hget, hemail⟩ := Table.first_eq_some hfirst
      have hemail : user.email = normalized lower email := beq_iff_eq.mp hemail
      have hsame : (∃ user', db.tables.users.get userId = some user' ∧
          user'.email = normalized lower email ∧ user'.isActive = true ∧
          passwords.verify password user'.passwordHash = true) ↔
          id = userId ∧ user.isActive = true ∧
            passwords.verify password user.passwordHash = true := by
        constructor
        · rintro ⟨user', hget', hemail', hactive, hverify⟩
          obtain ⟨rfl, rfl⟩ := hunique.id_eq hget hget' (hemail.trans hemail'.symm)
          exact ⟨rfl, hactive, hverify⟩
        · rintro ⟨rfl, hactive, hverify⟩
          exact ⟨user, hget, hemail, hactive, hverify⟩
      rw [hsame]
      cases hactive : user.isActive <;> cases hverify : passwords.verify password user.passwordHash <;>
        simp [hactive, hverify, Raising.alone_bind]

/-- Accounts are not changed. -/
theorem account_kept {userId : Nat} {user : User} (c : Commit) (db : AccessDb)
    (h : db.tables.users.get userId = some user) :
    (c.apply db).tables.users.get userId = some user := by
  rw [Commit.tables_apply]
  split
  · cases hw : c.write with
    | insertUser row =>
        show (db.tables.users.insert row).get userId = _
        rw [Table.get_insert, if_neg (Nat.ne_of_lt (Table.get_lt h)), h]
    | _ => exact h
  · exact h

/-- What an accepted commit has stored. -/
theorem account_of_outcome {c : Commit} {row : User} {userId : Nat}
    (hrow : c.write.newUser = some row)
    (hout : (c.apply db).outcome c.request = some userId) :
    (c.apply db).tables.users.get userId = some row := by
  obtain ⟨request, w⟩ := c
  cases w with
  | insertUser row' =>
      obtain rfl := Option.some.inj hrow
      unfold Commit.apply at hout ⊢
      split
      · next hallowed =>
          rw [dif_pos hallowed] at hout
          simp only [Function.update_self] at hout
          obtain rfl := Option.some.inj hout
          show (db.tables.users.insert row').get db.tables.users.next = _
          rw [Table.get_insert, if_pos rfl]
      · next hallowed =>
          rw [dif_neg hallowed] at hout
          simp only [Function.update_self] at hout
          cases hout
  | _ => cases hrow

/-- **Accounts.** From the commit of a new account on, in any interleaving of requests: an account
    that was registered can be logged in to with the address and the password it was registered
    with. One that was created directly can be logged in to, with its password and some address,
    if and only if its address is the normal form of one. -/
theorem accounts_reachable
    (hverify : ∀ salt password, passwords.verify password (passwords.hash salt password) = true)
    {trace : List (Commit × AccessDb)}
    (hrun : Runs Commit.apply start (requests.map fun r => (r.handle lower passwords).run) trace)
    {i j : Nat} {c : Commit} {s : AccessDb} {later : Commit × AccessDb} {row : User} {userId : Nat}
    (hi : (trace)[i]? = some (c, s)) (hrow : c.write.newUser = some row)
    (hout : s.outcome c.request = some userId) (hj : (trace)[j]? = some later) (hij : i ≤ j) :
    ∃ r ∈ requests, r.id = c.request ∧
      ((∃ payload, r.endpoint = .register payload ∧
        (Raising.alone Commit.apply (login lower passwords payload.email payload.password)
          later.2).1 = .ok (.token userId)) ∨
      ∃ payload, r.endpoint = .createUser payload ∧
        ((∃ email, (Raising.alone Commit.apply (login lower passwords email payload.password)
            later.2).1 = .ok (.token userId)) ↔
          ∃ email, normalized lower email = payload.email)) := by
  obtain ⟨r, hr, hid, hauthorized⟩ :=
    (justified_requests hrun).good_at (authorizedFor_mono lower passwords requests) hi
  have hstored : s.tables.users.get userId = some row := by
    obtain ⟨before, rfl⟩ := hrun.step_eq hi
    exact account_of_outcome hrow hout
  have hlater : later.2.tables.users.get userId = some row :=
    hrun.stable (P := fun db => db.tables.users.get userId = some row)
      (fun c db => account_kept c db) hi hj hij hstored
  refine ⟨r, hr, hid, ?_⟩
  cases hauthorized.account row hrow with
  | @registered payload hendpoint _ _ =>
      refine .inl ⟨payload, hendpoint, ?_⟩
      exact (login_iff ..).mpr ⟨_, hlater, rfl, rfl, hverify r.salt payload.password⟩
  | @created payload hendpoint _ =>
      refine .inr ⟨payload, hendpoint, ?_⟩
      constructor
      · rintro ⟨email, hlogin⟩
        obtain ⟨user, hget, hemail, -⟩ := (login_iff ..).mp hlogin
        obtain rfl := Option.some.inj (hlater.symm.trans hget)
        exact ⟨email, hemail.symm⟩
      · rintro ⟨email, hemail⟩
        refine ⟨email, (login_iff ..).mpr ⟨_, hlater, hemail.symm, rfl, ?_⟩⟩
        exact hverify r.salt payload.password

/-- A new account. -/
def signUp : Request where
  id := 1
  caller := none
  salt := 0
  endpoint := .register { fullName := "Eve", email := " Eve@Corp.io", password := "12345678" }

theorem accounts_reachable_signUp : ∃ r ∈ [signUp], r.id = 1 ∧
    ((∃ payload, r.endpoint = .register payload ∧
      (Raising.alone Commit.apply (login .asciiOnly plainPasswords payload.email payload.password)
        ((⟨1, .insertUser ⟨"Eve", "eve@corp.io", "plain:12345678", true, false⟩⟩ : Commit).apply
          installation)).1 = .ok (.token 2)) ∨
    ∃ payload, r.endpoint = .createUser payload ∧
      ((∃ email, (Raising.alone Commit.apply
          (login .asciiOnly plainPasswords email payload.password)
          ((⟨1, .insertUser ⟨"Eve", "eve@corp.io", "plain:12345678", true, false⟩⟩ : Commit).apply
            installation)).1 = .ok (.token 2)) ↔
        ∃ email, normalized .asciiOnly email = payload.email)) :=
  accounts_reachable (i := 0) (j := 0) (fun _ _ => beq_self_eq_true _)
    (runs_schedule Commit.apply installation
      ([signUp].map fun r => (r.handle .asciiOnly plainPasswords).run) [0, 0, 0])
    rfl rfl rfl rfl (Nat.le_refl 0)

end AgentCorp.Access
