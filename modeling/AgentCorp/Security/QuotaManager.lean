/-
  The quota manager: one session that reads, counts and resets.

  The id of a row is its position in the table. `enforce_quota` commits the new counter before
  it looks at the limit, so a refused call has counted as well.

  * `lookup_call`: what a call leaves in the row of each entity and quota type.
  * `usedOf_afterCalls`: the stored counter is all that was asked for since the last reset.
  * `exactAccounting_iff`: the accounting is exact exactly along the runs without a refusal.
-/
import AgentCorp.Python.Values
import Mathlib.Data.List.Basic
import Mathlib.Data.List.Induction

namespace AgentCorp.Security

open AgentCorp.Python

def defaultAiTokensQuota : Int := 1000000

structure QuotaUsage where
  entityId : Int
  quotaType : String
  used : Int
  limit : Option Int
  periodStart : Instant
  deriving DecidableEq, Repr

abbrev QuotaTable := List QuotaUsage

/-- `filter_by(entity_id=entity_id, quota_type=quota_type)`. -/
def QuotaUsage.isFor (entityId : Int) (quotaType : String) (row : QuotaUsage) : Bool :=
  row.entityId == entityId && row.quotaType == quotaType

def getQuotaUsage (table : QuotaTable) (entityId : Int) (quotaType : String) : Option Nat :=
  table.findIdx? (·.isFor entityId quotaType)

def newQuotaUsage (entityId : Int) (quotaType : String) (now : Instant) : QuotaUsage :=
  { entityId, quotaType, used := 0, limit := some defaultAiTokensQuota, periodStart := now }

def getOrCreateQuota (table : QuotaTable) (entityId : Int) (quotaType : String) (now : Instant) :
    Nat × QuotaTable :=
  match getQuotaUsage table entityId quotaType with
  | some usage => (usage, table)
  | none => (table.length, table ++ [newQuotaUsage entityId quotaType now])

def incrementQuota (table : QuotaTable) (entityId : Int) (quotaType : String) (amount : Int)
    (now : Instant) : Nat × QuotaTable :=
  let (usage, table) := getOrCreateQuota table entityId quotaType now
  (usage, table.modify usage fun row => { row with used := row.used + amount })

def resetQuota (table : QuotaTable) (entityId : Int) (quotaType : String)
    (now periodStart : Instant) : Nat × QuotaTable :=
  let (usage, table) := getOrCreateQuota table entityId quotaType now
  (usage, table.modify usage fun row => { row with used := 0, periodStart })

/-- `limit if limit is not None else (usage.limit or DEFAULT_AI_TOKENS_QUOTA)`. -/
def effectiveLimit (limit : Option Int) (usage : QuotaUsage) : Int :=
  match limit, usage.limit with
  | some limit, _ => limit
  | none, some stored => if stored = 0 then defaultAiTokensQuota else stored
  | none, none => defaultAiTokensQuota

def quotaExceeded (usage : QuotaUsage) (limit : Int) : Exn :=
  .other "QuotaExceededError"
    ("Quota '" ++ usage.quotaType ++ "' exceeded for entity " ++ toString usage.entityId ++ ": " ++
      toString usage.used ++ "/" ++ toString limit ++ " units used.")

/-- `db.refresh`. -/
def refresh (table : QuotaTable) (usage : Nat) : Except Exn QuotaUsage :=
  match table[usage]? with
  | some row => .ok row
  | none => .error (.other "InvalidRequestError" "Could not refresh instance")

/-- The check of `enforce_quota`, after the increment. -/
def checkQuota (limit : Option Int) (usage : QuotaUsage) : Except Exn QuotaUsage :=
  let effective := effectiveLimit limit usage
  if usage.used > effective then .error (quotaExceeded usage effective) else .ok usage

def enforceQuota (table : QuotaTable) (entityId : Int) (quotaType : String) (amount : Int)
    (limit : Option Int) (now : Instant) : Except Exn QuotaUsage × QuotaTable :=
  let (usage, table) := incrementQuota table entityId quotaType amount now
  match refresh table usage with
  | .error e => (.error e, table)
  | .ok usage => (checkQuota limit usage, table)

/-! ## Runs -/

inductive QuotaCall where
  | enforce (entityId : Int) (quotaType : String) (amount : Int) (now : Instant)
  | reset (entityId : Int) (quotaType : String) (now periodStart : Instant)
  deriving DecidableEq, Repr

/-- The limits that the callers hand over. -/
abbrev Limits := Int → String → Option Int

def call (limits : Limits) (table : QuotaTable) : QuotaCall → Except Exn QuotaUsage × QuotaTable
  | .enforce entityId quotaType amount now =>
      enforceQuota table entityId quotaType amount (limits entityId quotaType) now
  | .reset entityId quotaType now periodStart =>
      let (usage, table) := resetQuota table entityId quotaType now periodStart
      (refresh table usage, table)

def afterCalls (limits : Limits) (table : QuotaTable) (calls : List QuotaCall) : QuotaTable :=
  calls.foldl (fun table c => (call limits table c).2) table

def QuotaCall.isFor (entityId : Int) (quotaType : String) : QuotaCall → Bool
  | .enforce entityId' quotaType' _ _ => entityId' == entityId && quotaType' == quotaType
  | .reset entityId' quotaType' _ _ => entityId' == entityId && quotaType' == quotaType

def lookup (table : QuotaTable) (entityId : Int) (quotaType : String) : Option QuotaUsage :=
  table.find? (·.isFor entityId quotaType)

/-- The stored counter. -/
def usedOf (table : QuotaTable) (entityId : Int) (quotaType : String) : Int :=
  ((lookup table entityId quotaType).map QuotaUsage.used).getD 0

/-- The limit that the calls for an entity and quota type are held against. -/
def limitOf (limits : Limits) (table : QuotaTable) (entityId : Int) (quotaType : String) : Int :=
  match lookup table entityId quotaType with
  | some usage => effectiveLimit (limits entityId quotaType) usage
  | none => (limits entityId quotaType).getD defaultAiTokensQuota

/-! ## One call -/

theorem find?_modify {α : Type} (p : α → Bool) (f : α → α) (hf : ∀ a, p (f a) = p a)
    (l : List α) (i : Nat) :
    (l.modify i f).find? p = if l.findIdx? p = some i then (l.find? p).map f else l.find? p := by
  induction l generalizing i with
  | nil => simp
  | cons a l ih =>
      cases i with
      | zero =>
          rw [List.modify_zero_cons, List.find?_cons, List.find?_cons, List.findIdx?_cons, hf]
          cases ha : p a <;> simp
      | succ i =>
          rw [List.modify_succ_cons, List.find?_cons, List.find?_cons, List.findIdx?_cons, ih]
          cases ha : p a
          · simp
          · simp

theorem lookup_getOrCreateQuota (table : QuotaTable) (entityId : Int) (quotaType : String)
    (now : Instant) (entityId' : Int) (quotaType' : String) :
    lookup (getOrCreateQuota table entityId quotaType now).2 entityId' quotaType' =
      if entityId' = entityId ∧ quotaType' = quotaType
      then some ((lookup table entityId quotaType).getD (newQuotaUsage entityId quotaType now))
      else lookup table entityId' quotaType' := by
  unfold getOrCreateQuota getQuotaUsage lookup
  cases hindex : table.findIdx? (·.isFor entityId quotaType) with
  | some usage =>
      obtain ⟨row, hrow⟩ : ∃ row, table.find? (·.isFor entityId quotaType) = some row := by
        have hsome : (table.findIdx? (·.isFor entityId quotaType)).isSome := by simp [hindex]
        rw [List.findIdx?_isSome] at hsome
        exact Option.isSome_iff_exists.mp (by rw [List.find?_isSome]; simpa using hsome)
      by_cases hkey : entityId' = entityId ∧ quotaType' = quotaType
      · rw [if_pos hkey, hkey.1, hkey.2, hrow]
        rfl
      · rw [if_neg hkey]
  | none =>
      have hnone : table.find? (·.isFor entityId quotaType) = none := by
        rw [List.findIdx?_eq_none_iff] at hindex
        exact List.find?_eq_none.mpr (by simpa using hindex)
      show (table ++ [newQuotaUsage entityId quotaType now]).find? _ = _
      rw [List.find?_append, List.find?_singleton, hnone]
      by_cases hkey : entityId' = entityId ∧ quotaType' = quotaType
      · rw [if_pos hkey, hkey.1, hkey.2, hnone]
        simp [QuotaUsage.isFor, newQuotaUsage]
      · have hother : ¬ (entityId = entityId' ∧ quotaType = quotaType') :=
          fun h => hkey ⟨h.1.symm, h.2.symm⟩
        simp [hkey, QuotaUsage.isFor, newQuotaUsage, hother]

theorem getElem?_of_findIdx? {α : Type} {p : α → Bool} {l : List α} {i : Nat}
    (h : l.findIdx? p = some i) : l[i]? = l.find? p := by
  obtain ⟨hlt, hp, hbefore⟩ := List.findIdx?_eq_some_iff_getElem.mp h
  rw [List.getElem?_eq_getElem hlt]
  exact (List.find?_eq_some_iff_getElem.mpr ⟨hp, i, hlt, rfl, by simpa using hbefore⟩).symm

theorem findIdx?_getOrCreateQuota (table : QuotaTable) (entityId : Int) (quotaType : String)
    (now : Instant) :
    (getOrCreateQuota table entityId quotaType now).2.findIdx? (·.isFor entityId quotaType) =
      some (getOrCreateQuota table entityId quotaType now).1 := by
  unfold getOrCreateQuota getQuotaUsage
  cases hindex : table.findIdx? (·.isFor entityId quotaType) with
  | some usage => exact hindex
  | none =>
      show (table ++ [newQuotaUsage entityId quotaType now]).findIdx? _ = some table.length
      rw [List.findIdx?_append, hindex]
      simp [List.findIdx?_cons, QuotaUsage.isFor, newQuotaUsage]

/-- The row of an entity and quota type as a call finds or creates it. -/
def rowFor (table : QuotaTable) (entityId : Int) (quotaType : String) (now : Instant) :
    QuotaUsage :=
  (lookup table entityId quotaType).getD (newQuotaUsage entityId quotaType now)

section Change

variable (table : QuotaTable) (entityId : Int) (quotaType : String) (now : Instant)
  (change : QuotaUsage → QuotaUsage)
  (hchange : ∀ entityId quotaType row,
    (change row).isFor entityId quotaType = row.isFor entityId quotaType)

theorem refresh_change :
    refresh ((getOrCreateQuota table entityId quotaType now).2.modify
        (getOrCreateQuota table entityId quotaType now).1 change)
      (getOrCreateQuota table entityId quotaType now).1 =
      .ok (change (rowFor table entityId quotaType now)) := by
  have hget := getElem?_of_findIdx? (findIdx?_getOrCreateQuota table entityId quotaType now)
  have hrow := lookup_getOrCreateQuota table entityId quotaType now entityId quotaType
  rw [if_pos ⟨rfl, rfl⟩] at hrow
  unfold refresh
  rw [List.getElem?_modify_eq, hget]
  show (match Option.map change (lookup _ entityId quotaType) with
    | some row => Except.ok row
    | none => _) = _
  rw [hrow]
  rfl

include hchange in
theorem lookup_change (entityId' : Int) (quotaType' : String) :
    lookup ((getOrCreateQuota table entityId quotaType now).2.modify
        (getOrCreateQuota table entityId quotaType now).1 change) entityId' quotaType' =
      if entityId' = entityId ∧ quotaType' = quotaType
      then some (change (rowFor table entityId quotaType now))
      else lookup table entityId' quotaType' := by
  have hindex := findIdx?_getOrCreateQuota table entityId quotaType now
  have hrow := lookup_getOrCreateQuota table entityId quotaType now entityId' quotaType'
  unfold lookup
  rw [find?_modify _ _ (hchange entityId' quotaType')]
  by_cases hkey : entityId' = entityId ∧ quotaType' = quotaType
  · obtain ⟨rfl, rfl⟩ := hkey
    rw [if_pos ⟨rfl, rfl⟩] at hrow
    rw [if_pos hindex, if_pos ⟨rfl, rfl⟩]
    show Option.map change (lookup _ entityId' quotaType') = _
    rw [hrow]
    rfl
  · rw [if_neg hkey] at hrow ⊢
    -- A row is the first of one entity and quota type only.
    have hother : (getOrCreateQuota table entityId quotaType now).2.findIdx?
        (·.isFor entityId' quotaType') ≠
        some (getOrCreateQuota table entityId quotaType now).1 := by
      intro hsame
      obtain ⟨_, hfor, -⟩ := List.findIdx?_eq_some_iff_getElem.mp hindex
      obtain ⟨_, hfor', -⟩ := List.findIdx?_eq_some_iff_getElem.mp hsame
      simp only [QuotaUsage.isFor, Bool.and_eq_true, beq_iff_eq] at hfor hfor'
      exact hkey ⟨hfor'.1.symm.trans hfor.1, hfor'.2.symm.trans hfor.2⟩
    rw [if_neg hother]
    exact hrow

end Change

/-- What a call makes of the row it finds or creates. -/
def QuotaCall.apply : QuotaCall → QuotaUsage → QuotaUsage
  | .enforce _ _ amount _, row => { row with used := row.used + amount }
  | .reset _ _ _ periodStart, row => { row with used := 0, periodStart }

def QuotaCall.now : QuotaCall → Instant
  | .enforce _ _ _ now => now
  | .reset _ _ now _ => now

/-- **One call.** It changes the row of its entity and quota type and no other. -/
theorem lookup_call (limits : Limits) (table : QuotaTable) (c : QuotaCall) (entityId : Int)
    (quotaType : String) :
    lookup (call limits table c).2 entityId quotaType =
      if c.isFor entityId quotaType then some (c.apply (rowFor table entityId quotaType c.now))
      else lookup table entityId quotaType := by
  cases c with
  | enforce entityId' quotaType' amount now =>
      have hrefresh := refresh_change table entityId' quotaType' now
        fun row => { row with used := row.used + amount }
      have hlookup := lookup_change table entityId' quotaType' now
        (fun row => { row with used := row.used + amount }) (fun _ _ _ => rfl)
        entityId quotaType
      unfold call enforceQuota incrementQuota
      simp only [hrefresh, hlookup]
      by_cases hkey : entityId = entityId' ∧ quotaType = quotaType'
      · obtain ⟨rfl, rfl⟩ := hkey
        simp [QuotaCall.isFor, QuotaCall.apply, QuotaCall.now]
      · have hother : ¬ (entityId' = entityId ∧ quotaType' = quotaType) :=
          fun h => hkey ⟨h.1.symm, h.2.symm⟩
        simp [QuotaCall.isFor, hkey, hother]
  | reset entityId' quotaType' now periodStart =>
      have hlookup := lookup_change table entityId' quotaType' now
        (fun row => { row with used := 0, periodStart }) (fun _ _ _ => rfl)
        entityId quotaType
      unfold call resetQuota
      simp only [hlookup]
      by_cases hkey : entityId = entityId' ∧ quotaType = quotaType'
      · obtain ⟨rfl, rfl⟩ := hkey
        simp [QuotaCall.isFor, QuotaCall.apply, QuotaCall.now]
      · have hother : ¬ (entityId' = entityId ∧ quotaType' = quotaType) :=
          fun h => hkey ⟨h.1.symm, h.2.symm⟩
        simp [QuotaCall.isFor, hkey, hother]

theorem used_rowFor (table : QuotaTable) (entityId : Int) (quotaType : String) (now : Instant) :
    (rowFor table entityId quotaType now).used = usedOf table entityId quotaType := by
  unfold rowFor usedOf
  cases lookup table entityId quotaType <;> rfl

theorem effectiveLimit_rowFor (limits : Limits) (table : QuotaTable) (entityId : Int)
    (quotaType : String) (now : Instant) :
    effectiveLimit (limits entityId quotaType) (rowFor table entityId quotaType now) =
      limitOf limits table entityId quotaType := by
  unfold rowFor limitOf
  cases lookup table entityId quotaType with
  | some usage => rfl
  | none => cases limits entityId quotaType <;> rfl

/-- A call keeps the limit of the row. -/
theorem effectiveLimit_apply (limit : Option Int) (c : QuotaCall) (row : QuotaUsage) :
    effectiveLimit limit (c.apply row) = effectiveLimit limit row := by
  cases c <;> rfl

theorem limitOf_call (limits : Limits) (table : QuotaTable) (c : QuotaCall) (entityId : Int)
    (quotaType : String) :
    limitOf limits (call limits table c).2 entityId quotaType =
      limitOf limits table entityId quotaType := by
  have hrow := effectiveLimit_rowFor limits table entityId quotaType c.now
  rw [← hrow]
  unfold limitOf
  rw [lookup_call]
  by_cases hfor : c.isFor entityId quotaType = true
  · rw [if_pos hfor]
    exact effectiveLimit_apply _ c _
  · rw [if_neg hfor]
    exact hrow.symm

/-- What a call adds up to, when no call were refused. -/
def tally (entityId : Int) (quotaType : String) (total : Int) (c : QuotaCall) : Int :=
  if c.isFor entityId quotaType then
    match c with
    | .enforce _ _ amount _ => total + amount
    | .reset _ _ _ _ => 0
  else total

theorem usedOf_call (limits : Limits) (table : QuotaTable) (c : QuotaCall) (entityId : Int)
    (quotaType : String) :
    usedOf (call limits table c).2 entityId quotaType =
      tally entityId quotaType (usedOf table entityId quotaType) c := by
  have hrow := used_rowFor table entityId quotaType c.now
  unfold tally
  rw [← hrow]
  unfold usedOf
  rw [lookup_call]
  by_cases hfor : c.isFor entityId quotaType = true
  · rw [if_pos hfor, if_pos hfor]
    cases c <;> rfl
  · rw [if_neg hfor, if_neg hfor]
    exact hrow.symm

theorem call_enforce (limits : Limits) (table : QuotaTable) (entityId : Int)
    (quotaType : String) (amount : Int) (now : Instant) :
    (call limits table (.enforce entityId quotaType amount now)).1 =
      checkQuota (limits entityId quotaType)
        ((QuotaCall.enforce entityId quotaType amount now).apply
          (rowFor table entityId quotaType now)) := by
  have hrefresh := refresh_change table entityId quotaType now
    fun row => { row with used := row.used + amount }
  unfold call enforceQuota incrementQuota
  simp only [hrefresh]
  rfl

theorem call_reset (limits : Limits) (table : QuotaTable) (entityId : Int) (quotaType : String)
    (now periodStart : Instant) :
    (call limits table (.reset entityId quotaType now periodStart)).1 =
      .ok ((QuotaCall.reset entityId quotaType now periodStart).apply
        (rowFor table entityId quotaType now)) :=
  refresh_change table entityId quotaType now fun row => { row with used := 0, periodStart }

theorem enforce_refuses_iff (limits : Limits) (table : QuotaTable) (entityId : Int)
    (quotaType : String) (amount : Int) (now : Instant) :
    (∃ e, (call limits table (.enforce entityId quotaType amount now)).1 = .error e) ↔
      limitOf limits table entityId quotaType < usedOf table entityId quotaType + amount := by
  have happly := effectiveLimit_apply (limits entityId quotaType)
    (.enforce entityId quotaType amount now) (rowFor table entityId quotaType now)
  have hused : ((QuotaCall.enforce entityId quotaType amount now).apply
      (rowFor table entityId quotaType now)).used = usedOf table entityId quotaType + amount :=
    congrArg (· + amount) (used_rowFor table entityId quotaType now)
  rw [effectiveLimit_rowFor] at happly
  rw [call_enforce]
  unfold checkQuota
  simp only [happly, hused]
  by_cases hover :
      usedOf table entityId quotaType + amount > limitOf limits table entityId quotaType
  · rw [if_pos hover]
    exact ⟨fun _ => hover, fun _ => ⟨_, rfl⟩⟩
  · rw [if_neg hover]
    constructor
    · rintro ⟨e, he⟩
      cases he
    · intro h
      exact absurd h hover

/-! ## Whole runs -/

/-- The calls of a run with their answers. -/
def quotaLog (limits : Limits) (table : QuotaTable) :
    List QuotaCall → List (QuotaCall × Except Exn QuotaUsage)
  | [] => []
  | c :: calls =>
      let (answer, table) := call limits table c
      (c, answer) :: quotaLog limits table calls

/-- The sum of the amounts of the successful calls since the last reset, and of what was stored
    where there was none. -/
def granted (entityId : Int) (quotaType : String) (start : Int)
    (entries : List (QuotaCall × Except Exn QuotaUsage)) : Int :=
  entries.foldl
    (fun total entry =>
      match entry.2 with
      | .ok _ => tally entityId quotaType total entry.1
      | .error _ => total)
    start

/-- The sum of the amounts of all calls since the last reset. -/
def asked (entityId : Int) (quotaType : String) (start : Int) (calls : List QuotaCall) : Int :=
  calls.foldl (tally entityId quotaType) start

theorem usedOf_afterCalls (limits : Limits) (table : QuotaTable) (calls : List QuotaCall)
    (entityId : Int) (quotaType : String) :
    usedOf (afterCalls limits table calls) entityId quotaType =
      asked entityId quotaType (usedOf table entityId quotaType) calls := by
  induction calls generalizing table with
  | nil => rfl
  | cons c calls ih =>
      show usedOf (afterCalls limits (call limits table c).2 calls) entityId quotaType = _
      rw [ih, usedOf_call]
      rfl

theorem limitOf_afterCalls (limits : Limits) (table : QuotaTable) (calls : List QuotaCall)
    (entityId : Int) (quotaType : String) :
    limitOf limits (afterCalls limits table calls) entityId quotaType =
      limitOf limits table entityId quotaType := by
  induction calls generalizing table with
  | nil => rfl
  | cons c calls ih =>
      show limitOf limits (afterCalls limits (call limits table c).2 calls) entityId quotaType = _
      rw [ih, limitOf_call]

/-- A row is there from the start or from the first call for it on. -/
theorem lookup_afterCalls_isSome (limits : Limits) (table : QuotaTable) (calls : List QuotaCall)
    (entityId : Int) (quotaType : String) :
    (lookup (afterCalls limits table calls) entityId quotaType).isSome ↔
      (lookup table entityId quotaType).isSome ∨
        ∃ c ∈ calls, c.isFor entityId quotaType = true := by
  induction calls generalizing table with
  | nil => simp [afterCalls]
  | cons c calls ih =>
      show (lookup (afterCalls limits (call limits table c).2 calls) entityId quotaType).isSome ↔ _
      rw [ih, lookup_call]
      by_cases hfor : c.isFor entityId quotaType = true
      · simp [hfor]
      · simp [hfor]

theorem afterCalls_concat (limits : Limits) (table : QuotaTable) (calls : List QuotaCall)
    (c : QuotaCall) :
    afterCalls limits table (calls ++ [c]) = (call limits (afterCalls limits table calls) c).2 := by
  unfold afterCalls
  rw [List.foldl_concat]

/-- **Exact and atomic accounting** over a run: what holds of each call and after each call. -/
structure ExactAccounting (limits : Limits) (table : QuotaTable) (calls : List QuotaCall) :
    Prop where
  refusedLeavesUsed : ∀ before entityId quotaType amount now after e,
    calls = before ++ .enforce entityId quotaType amount now :: after →
    (call limits (afterCalls limits table before) (.enforce entityId quotaType amount now)).1 =
      .error e →
    usedOf (afterCalls limits table (before ++ [.enforce entityId quotaType amount now]))
      entityId quotaType = usedOf (afterCalls limits table before) entityId quotaType
  withinLimit : ∀ before entityId quotaType usage, before <+: calls →
    lookup (afterCalls limits table before) entityId quotaType = some usage →
    usage.used ≤ effectiveLimit (limits entityId quotaType) usage
  usedIsGranted : ∀ before entityId quotaType, before <+: calls →
    usedOf (afterCalls limits table before) entityId quotaType =
      granted entityId quotaType (usedOf table entityId quotaType) (quotaLog limits table before)
  refusedOnlyOver : ∀ before entityId quotaType amount now after e,
    calls = before ++ .enforce entityId quotaType amount now :: after →
    (call limits (afterCalls limits table before) (.enforce entityId quotaType amount now)).1 =
      .error e →
    limitOf limits table entityId quotaType <
      granted entityId quotaType (usedOf table entityId quotaType)
        (quotaLog limits table before) + amount

/-- At no point of the run do the amounts asked for since the last reset exceed the limit. -/
def NeverOverAsked (limits : Limits) (table : QuotaTable) (calls : List QuotaCall) : Prop :=
  ∀ before entityId quotaType, before <+: calls →
    ((lookup table entityId quotaType).isSome ∨
      ∃ c ∈ before, c.isFor entityId quotaType = true) →
    asked entityId quotaType (usedOf table entityId quotaType) before ≤
      limitOf limits table entityId quotaType

theorem used_le_limitOf (limits : Limits) {table : QuotaTable} {entityId : Int}
    {quotaType : String} {usage : QuotaUsage} (h : lookup table entityId quotaType = some usage) :
    usage.used = usedOf table entityId quotaType ∧
      effectiveLimit (limits entityId quotaType) usage =
        limitOf limits table entityId quotaType := by
  unfold usedOf limitOf
  rw [h]
  exact ⟨rfl, rfl⟩

theorem NeverOverAsked.mono {limits : Limits} {table : QuotaTable} {before calls : List QuotaCall}
    (h : NeverOverAsked limits table calls) (hbefore : before <+: calls) :
    NeverOverAsked limits table before :=
  fun start entityId quotaType hstart => h start entityId quotaType (hstart.trans hbefore)

theorem quotaLog_append (limits : Limits) (table : QuotaTable) (before rest : List QuotaCall) :
    quotaLog limits table (before ++ rest) =
      quotaLog limits table before ++ quotaLog limits (afterCalls limits table before) rest := by
  induction before generalizing table with
  | nil => rfl
  | cons c before ih =>
      show (c, (call limits table c).1) ::
        quotaLog limits (call limits table c).2 (before ++ rest) = _
      rw [ih]
      rfl

/-- A run that never asks for too much has no refusal. -/
theorem answer_ok {limits : Limits} {table : QuotaTable} {before : List QuotaCall} {c : QuotaCall}
    (h : NeverOverAsked limits table (before ++ [c])) :
    ∃ usage, (call limits (afterCalls limits table before) c).1 = .ok usage := by
  cases c with
  | reset entityId quotaType now periodStart => exact ⟨_, call_reset ..⟩
  | enforce entityId quotaType amount now =>
      have hasked := h (before ++ [.enforce entityId quotaType amount now]) entityId quotaType
        List.prefix_rfl (Or.inr ⟨_, List.mem_append_right _ (List.mem_singleton_self _), by
          simp [QuotaCall.isFor]⟩)
      have hused := usedOf_afterCalls limits table
        (before ++ [.enforce entityId quotaType amount now]) entityId quotaType
      rw [afterCalls_concat, usedOf_call] at hused
      have htally : tally entityId quotaType
          (usedOf (afterCalls limits table before) entityId quotaType)
          (.enforce entityId quotaType amount now) =
          usedOf (afterCalls limits table before) entityId quotaType + amount := by
        simp [tally, QuotaCall.isFor]
      have hrefuses := enforce_refuses_iff limits (afterCalls limits table before) entityId
        quotaType amount now
      rw [limitOf_afterCalls] at hrefuses
      cases hanswer : (call limits (afterCalls limits table before)
          (.enforce entityId quotaType amount now)).1 with
      | ok usage => exact ⟨usage, rfl⟩
      | error e =>
          have hover := hrefuses.mp ⟨e, hanswer⟩
          omega

theorem granted_eq_asked {limits : Limits} {table : QuotaTable} {calls : List QuotaCall}
    (h : NeverOverAsked limits table calls) (entityId : Int) (quotaType : String) :
    granted entityId quotaType (usedOf table entityId quotaType) (quotaLog limits table calls) =
      asked entityId quotaType (usedOf table entityId quotaType) calls := by
  induction calls using List.reverseRecOn with
  | nil => rfl
  | append_singleton before c ih =>
      obtain ⟨usage, hanswer⟩ := answer_ok h
      have hbefore := ih (h.mono (List.prefix_append before [c]))
      rw [quotaLog_append]
      unfold granted asked at hbefore ⊢
      rw [List.foldl_append, List.foldl_append, hbefore]
      show (match (call limits (afterCalls limits table before) c).1 with
        | .ok _ => _
        | .error _ => _) = _
      rw [hanswer]
      rfl

/-- **The accounting is exact along exactly the runs that never ask for more than the limit.** -/
theorem exactAccounting_iff (limits : Limits) (table : QuotaTable) (calls : List QuotaCall) :
    ExactAccounting limits table calls ↔ NeverOverAsked limits table calls := by
  constructor
  · intro hexact before entityId quotaType hbefore hthere
    -- The counter is what was asked for, and it stays within the limit.
    have hsome := (lookup_afterCalls_isSome limits table before entityId quotaType).mpr hthere
    obtain ⟨usage, husage⟩ := Option.isSome_iff_exists.mp hsome
    have hwithin := hexact.withinLimit before entityId quotaType usage hbefore husage
    obtain ⟨hused, hlimit⟩ := used_le_limitOf limits husage
    rw [hused, hlimit, usedOf_afterCalls, limitOf_afterCalls] at hwithin
    exact hwithin
  · intro hasked
    have hrefused : ∀ before entityId quotaType amount now after e,
        calls = before ++ .enforce entityId quotaType amount now :: after →
        (call limits (afterCalls limits table before)
          (.enforce entityId quotaType amount now)).1 ≠ .error e := by
      intro before entityId quotaType amount now after e hcalls herror
      have hinitial : before ++ [.enforce entityId quotaType amount now] <+: calls :=
        ⟨after, by rw [hcalls, List.append_assoc]; rfl⟩
      obtain ⟨usage, hok⟩ := answer_ok (hasked.mono hinitial)
      rw [herror] at hok
      cases hok
    refine ⟨?_, ?_, ?_, ?_⟩
    · intro before entityId quotaType amount now after e hcalls herror
      exact absurd herror (hrefused before entityId quotaType amount now after e hcalls)
    · intro before entityId quotaType usage hbefore husage
      have hthere := (lookup_afterCalls_isSome limits table before entityId quotaType).mp
        (by rw [husage]; rfl)
      obtain ⟨hused, hlimit⟩ := used_le_limitOf limits husage
      rw [hused, hlimit, usedOf_afterCalls, limitOf_afterCalls]
      exact hasked before entityId quotaType hbefore hthere
    · intro before entityId quotaType hbefore
      rw [usedOf_afterCalls, granted_eq_asked (hasked.mono hbefore)]
    · intro before entityId quotaType amount now after e hcalls herror
      exact absurd herror (hrefused before entityId quotaType amount now after e hcalls)

def midnight : Instant := ⟨0, "1970-01-01T00:00:00+00:00"⟩

/-- A request of eleven units under a limit of ten is refused and counted, and the request of one
    unit that would fit is refused after it. -/
def refusedAndCounted : List QuotaCall :=
  [.enforce 1 "ai_tokens" 11 midnight, .enforce 1 "ai_tokens" 1 midnight]

theorem not_exactAccounting_refusedAndCounted :
    ¬ ExactAccounting (fun _ _ => some 10) [] refusedAndCounted := by
  intro hexact
  have hleaves := hexact.refusedLeavesUsed [] 1 "ai_tokens" 11 midnight
    [.enforce 1 "ai_tokens" 1 midnight] _ rfl rfl
  exact absurd hleaves (by decide)

end AgentCorp.Security
