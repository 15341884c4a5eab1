/-
  IP allow-lists: what an entry that is no network does to the ones after it.

  `_check_ip` asks the entries in order, inside one handler for `ValueError`. So an entry that
  contains the address ends the walk with `True`, and a malformed one ends it with `False`.

  * `checkIp_eq`: the walk, as a first decision.
  * `meansMembership_iff`: when the list means membership, in every order.
-/
import AgentCorp.Python.IpAddress
import AgentCorp.Python.WellKeyed
import AgentCorp.Security.PolicyEngine

namespace AgentCorp.Security

open AgentCorp.Python

/-- `ipaddress`, on the values that a JSON column holds. `str` of any other value is neither an
    address nor a network. -/
def ipaddress : IpAddresses where
  Address := IpAddress
  Network := IpNetwork
  address := fun text =>
    match ipAddress text.toList with
    | some address => .ok address
    | none => .error (text ++ " does not appear to be an IPv4 or IPv6 address")
  network := fun value =>
    let network :=
      match value with
      | .str text => ipNetwork text.toList
      | .int number => ipNetworkOfInt number
      | .bool b => ipNetworkOfInt (if b then 1 else 0)
      | _ => none
    match network with
    | some network => .ok network
    | none => .error "the value does not appear to be an IPv4 or IPv6 network"
  contains := IpNetwork.contains

section Membership

variable (ip : IpAddresses)

/-- The condition, with this list of allowed networks. -/
def allowing (condition : Dict Json) (allowed : List Json) : Dict Json :=
  condition.set "allowed_ips" (.list allowed)

/-- The address of the client, if it has a valid one. -/
def clientAddress (clientIp : Option String) : Option ip.Address :=
  (clientIp.filter (· ≠ "")).bind fun text => (ip.address text).toOption

def Malformed (entry : Json) : Prop :=
  ∃ message, ip.network entry = .error message

/-- The entry is well formed, and contains the address. -/
def Covers (address : ip.Address) (entry : Json) : Prop :=
  ∃ network, ip.network entry = .ok network ∧ ip.contains network address = true

def Member (allowed : List Json) (clientIp : Option String) : Prop :=
  ∃ address, clientAddress ip clientIp = some address ∧ ∃ entry ∈ allowed, Covers ip address entry

/-- What an allow-list is for. -/
structure MeansMembership (condition : Dict Json) (allowed : List Json)
    (clientIp : Option String) : Prop where
  member : checkIp ip (allowing condition allowed) clientIp = .ok true ↔
    Member ip allowed clientIp
  order : ∀ reordered : List Json, reordered.Perm allowed →
    checkIp ip (allowing condition reordered) clientIp =
      checkIp ip (allowing condition allowed) clientIp

/-- How an entry ends the walk, if it does. -/
def entryDecision (address : ip.Address) (entry : Json) : Option Bool :=
  match ip.network entry with
  | .error _ => some false
  | .ok network => if ip.contains network address then some true else none

/-- The result of the walk. -/
def firstDecision (allowed : List Json) (clientIp : Option String) : Bool :=
  match clientAddress ip clientIp with
  | some address => (allowed.findSome? (entryDecision ip address)).getD false
  | none => false

variable {ip}

theorem entryDecision_eq_false {address : ip.Address} {entry : Json} :
    entryDecision ip address entry = some false ↔ Malformed ip entry := by
  unfold entryDecision Malformed
  match ip.network entry with
  | .error message => simp
  | .ok network => simp

theorem entryDecision_eq_true {address : ip.Address} {entry : Json} :
    entryDecision ip address entry = some true ↔ Covers ip address entry := by
  unfold entryDecision Covers
  match ip.network entry with
  | .error message => simp
  | .ok network => simp

theorem entryDecision_eq_none {address : ip.Address} {entry : Json} {network : ip.Network}
    (hnetwork : ip.network entry = .ok network) (hcontains : ip.contains network address = false) :
    entryDecision ip address entry = none := by
  unfold entryDecision
  rw [hnetwork]
  exact if_neg (by simp [hcontains])

/-- `except ValueError: return False`. -/
def handled : Except Exn Bool → Except Exn Bool
  | .error (.valueError _) => .ok false
  | result => result

theorem handled_inAnyNetwork (address : ip.Address) (allowed : List Json) :
    handled (inAnyNetwork ip address allowed) =
      .ok ((allowed.findSome? (entryDecision ip address)).getD false) := by
  induction allowed with
  | nil => rfl
  | cons entry rest ih =>
    rw [List.findSome?_cons]
    unfold inAnyNetwork
    cases hnetwork : ip.network entry with
    | error message =>
      rw [entryDecision_eq_false.mpr ⟨message, hnetwork⟩]
      rfl
    | ok network =>
      show handled (if ip.contains network address = true then .ok true
        else inAnyNetwork ip address rest) = _
      by_cases hcontains : ip.contains network address = true
      · rw [if_pos hcontains, entryDecision_eq_true.mpr ⟨network, hnetwork, hcontains⟩]
        rfl
      · have hnone := entryDecision_eq_none hnetwork (Bool.eq_false_iff.mpr hcontains)
        rw [if_neg hcontains, hnone]
        exact ih

theorem addressAllowed_eq (allowed : List Json) (text : String) :
    addressAllowed ip (.list allowed) text = match ip.address text with
      | .ok address => .ok ((allowed.findSome? (entryDecision ip address)).getD false)
      | .error _ => .ok false := by
  have hhandled : addressAllowed ip (.list allowed) text = handled (do
      let address ← (ip.address text).mapError Exn.valueError
      inAnyNetwork ip address allowed) := rfl
  rw [hhandled]
  cases haddress : ip.address text with
  | error message => rfl
  | ok address => exact handled_inAnyNetwork address allowed

/-- **The walk** over a list that is not empty ends with the first decision. -/
theorem checkIp_eq (condition : Dict Json) {allowed : List Json} (h : allowed ≠ [])
    (clientIp : Option String) :
    checkIp ip (allowing condition allowed) clientIp = .ok (firstDecision ip allowed clientIp) := by
  have hallowed : getJson (allowing condition allowed) "allowed_ips" = .list allowed := by
    unfold getJson allowing
    rw [lookup_set, if_pos rfl]
    rfl
  have htruthy : (Json.list allowed).truthy = true := by
    simp [Json.truthy, h]
  unfold checkIp firstDecision clientAddress
  simp only [hallowed, htruthy, Bool.not_true, Bool.false_eq_true, if_false]
  match clientIp with
  | none => rfl
  | some text =>
    by_cases hempty : text = ""
    · rw [hempty]
      rfl
    · have hgiven : (some text).filter (· ≠ "") = some text := by simp [hempty]
      rw [hgiven]
      simp only [Option.getD_some, Option.bind_some]
      rw [addressAllowed_eq]
      cases ip.address text with
      | error message => rfl
      | ok address => rfl

theorem checkIp_empty (condition : Dict Json) (clientIp : Option String) :
    checkIp ip (allowing condition []) clientIp = .ok true := by
  have hallowed : getJson (allowing condition []) "allowed_ips" = .list [] := by
    unfold getJson allowing
    rw [lookup_set, if_pos rfl]
    rfl
  unfold checkIp
  rw [hallowed]
  rfl

/-! ## Every order -/

/-- No entry is malformed, if one contains the address. -/
def NoneMalformed (ip : IpAddresses) (allowed : List Json) (clientIp : Option String) : Prop :=
  Member ip allowed clientIp → ∀ entry ∈ allowed, ¬ Malformed ip entry

theorem Member.perm {allowed reordered : List Json} {clientIp : Option String}
    (hperm : reordered.Perm allowed) :
    Member ip reordered clientIp ↔ Member ip allowed clientIp := by
  unfold Member
  simp only [hperm.mem_iff]

/-- Without malformed entries the walk finds the members. -/
theorem firstDecision_iff {allowed : List Json} {clientIp : Option String}
    (h : NoneMalformed ip allowed clientIp) :
    firstDecision ip allowed clientIp = true ↔ Member ip allowed clientIp := by
  unfold firstDecision
  constructor
  · intro htrue
    match haddress : clientAddress ip clientIp with
    | none =>
      rw [haddress] at htrue
      cases htrue
    | some address =>
      simp only [haddress] at htrue
      have hfirst : allowed.findSome? (entryDecision ip address) = some true := by
        match hfound : allowed.findSome? (entryDecision ip address) with
        | none => simp [hfound] at htrue
        | some b => simpa [hfound] using htrue
      obtain ⟨entry, hentry, hdecision⟩ := FirstDecision.findSome?_mem hfirst
      exact ⟨address, haddress, entry, hentry, entryDecision_eq_true.mp hdecision⟩
  · intro hmember
    obtain ⟨address, haddress, entry, hentry, hcovers⟩ := hmember
    have hagree : ∀ other ∈ allowed, ∀ b, entryDecision ip address other = some b → b = true := by
      intro other hother b hdecision
      match b with
      | true => rfl
      | false =>
        have hmalformed := entryDecision_eq_false.mp hdecision
        exact absurd hmalformed (h ⟨address, haddress, entry, hentry, hcovers⟩ other hother)
    have hfirst := FirstDecision.findSome?_of_agree hentry (entryDecision_eq_true.mpr hcovers) hagree
    simp [haddress, hfirst]

/-- **An allow-list means membership**, in every order, exactly if it is not empty and no entry
    is malformed where one contains the address of the client. -/
theorem meansMembership_iff (ip : IpAddresses) (condition : Dict Json) (allowed : List Json)
    (clientIp : Option String) :
    MeansMembership ip condition allowed clientIp ↔
      allowed ≠ [] ∧ NoneMalformed ip allowed clientIp := by
  constructor
  · intro h
    have hne : allowed ≠ [] := by
      intro hempty
      subst hempty
      obtain ⟨address, -, entry, hentry, -⟩ := h.member.mp (checkIp_empty condition clientIp)
      cases hentry
    refine ⟨hne, ?_⟩
    intro hmember entry hentry hmalformed
    obtain ⟨address, haddress, member, hin, hcovers⟩ := hmember
    -- Asked first, the one entry admits the client, and the other one keeps it out.
    have horder : ∀ (b : Bool) (reordered : List Json), reordered.Perm allowed →
        reordered.findSome? (entryDecision ip address) = some b →
        checkIp ip (allowing condition allowed) clientIp = .ok b := by
      intro b reordered hperm hfound
      have hne' : reordered ≠ [] := fun hempty => hne (hempty ▸ hperm).nil_eq.symm
      have hresult : checkIp ip (allowing condition reordered) clientIp = _ :=
        checkIp_eq condition hne' clientIp
      unfold firstDecision at hresult
      simp only [haddress, hfound, Option.getD_some] at hresult
      exact (h.order reordered hperm).symm.trans hresult
    obtain ⟨admitting, hperm, hfirst⟩ :=
      FirstDecision.exists_perm_head hin (entryDecision_eq_true.mpr hcovers)
    obtain ⟨refusing, hperm', hfirst'⟩ :=
      FirstDecision.exists_perm_head hentry (entryDecision_eq_false.mpr hmalformed)
    have htrue := horder true admitting hperm hfirst
    have hfalse := horder false refusing hperm' hfirst'
    rw [htrue] at hfalse
    cases hfalse
  · intro h
    obtain ⟨hne, hnone⟩ := h
    refine ⟨?_, ?_⟩
    · rw [checkIp_eq condition hne, ← firstDecision_iff hnone]
      simp
    · intro reordered hperm
      have hne' : reordered ≠ [] := fun hempty => hne (hempty ▸ hperm).nil_eq.symm
      have hnone' : NoneMalformed ip reordered clientIp := by
        intro hmember entry hentry
        exact hnone ((Member.perm hperm).mp hmember) entry (hperm.mem_iff.mp hentry)
      rw [checkIp_eq condition hne, checkIp_eq condition hne']
      have hsame : firstDecision ip reordered clientIp = true ↔
          firstDecision ip allowed clientIp = true := by
        rw [firstDecision_iff hnone', firstDecision_iff hnone, Member.perm hperm]
      rw [Bool.eq_iff_iff.mpr hsame]

end Membership

/-! A name in front of a network. -/

theorem ipaddress_network_str {text : String} {network : IpNetwork}
    (h : ipNetwork text.toList = some network) : ipaddress.network (.str text) = .ok network := by
  unfold ipaddress
  simp only [h]

theorem clientAddress_ipaddress {text : String} {address : IpAddress} (hne : text ≠ "")
    (h : ipAddress text.toList = some address) :
    clientAddress ipaddress (some text) = some address := by
  have hgiven : (some text).filter (· ≠ "") = some text := by simp [hne]
  unfold clientAddress
  rw [hgiven]
  unfold ipaddress
  simp [h, Except.toOption]

def officeList : List Json :=
  [.str "office", .str "10.0.0.0/8"]

theorem not_meansMembership_office :
    ¬ ∀ (ip : IpAddresses) (condition : Dict Json) (allowed : List Json)
      (clientIp : Option String), MeansMembership ip condition allowed clientIp := by
  intro h
  have hmembership := (h ipaddress [] officeList (some "10.1.2.3")).member
  have haddress : ipAddress "10.1.2.3".toList = some (.v4 0x0a010203#32) := by decide +kernel
  have hnetwork : ipNetwork "10.0.0.0/8".toList =
      some (.v4 (Network.ofAddress 0x0a000000#32 8 (by decide))) := by decide +kernel
  have hrefused : firstDecision ipaddress officeList (some "10.1.2.3") = false := by
    decide +kernel
  have hmember : Member ipaddress officeList (some "10.1.2.3") :=
    ⟨_, clientAddress_ipaddress (by decide) haddress, .str "10.0.0.0/8", by simp [officeList], _,
      ipaddress_network_str hnetwork, by decide⟩
  rw [checkIp_eq [] (by simp [officeList]), hrefused] at hmembership
  have hallowed := hmembership.mpr hmember
  cases hallowed

end AgentCorp.Security
