/-
  Sessions that increment one quota at the same time.

  Every session runs `increment_quota` or `enforce_quota` once. It queries the row, creates it if
  there is none, sets the attribute, commits and refreshes, and between any two of these steps
  the other sessions may take theirs. A commit writes the absolute value that was computed, and
  nothing where the attribute holds what was loaded. Where several rows match, the query may
  return any of them.

  * `tracks_step`, `tracks_run`: as long as there is one row, the sessions are the clients of a
    counter that is read, modified and written.
  * `exactTotal_of_serial`: which interleavings count every amount.
-/
import AgentCorp.Lib.ReadModifyWrite
import AgentCorp.Security.QuotaManager

namespace AgentCorp.Security

open AgentCorp.Python
open ReadModifyWrite

inductive QuotaOp where
  | increment
  | enforce (limit : Option Int)
  deriving DecidableEq, Repr

/-- What a call returns after its refresh. -/
def QuotaOp.result (op : QuotaOp) (usage : QuotaUsage) : Except Exn QuotaUsage :=
  match op with
  | .increment => .ok usage
  | .enforce limit => checkQuota limit usage

/-- Where a session is. `loaded` and `assigned` hold the value that the object was loaded with. -/
inductive Phase where
  | start
  | missing
  | created (usage : Nat)
  | loaded (usage : Nat) (used : Int)
  | assigned (usage : Nat) (loaded used : Int)
  | committed (usage : Nat)
  | returned (result : Except Exn QuotaUsage)

structure QuotaSession where
  op : QuotaOp
  amount : Int
  now : Instant
  phase : Phase := .start

/-- A step of the session `k`, as far as the rows are concerned. -/
inductive QuotaEvent where
  | idle
  | inserted (k : Nat)
  | loaded (k : Nat)
  | wrote (k : Nat)
  deriving DecidableEq, Repr

/-- One step of the session `k`. The query returns the row `pick`. -/
def QuotaSession.step (entityId : Int) (quotaType : String) (table : QuotaTable) (k pick : Nat)
    (session : QuotaSession) : Option (QuotaTable × Phase × QuotaEvent) :=
  match session.phase with
  | .start =>
      if table.any (·.isFor entityId quotaType) then
        match table[pick]? with
        | some row =>
            if row.isFor entityId quotaType then some (table, .loaded pick row.used, .loaded k)
            else none
        | none => none
      else some (table, .missing, .idle)
  | .missing =>
      some (table ++ [newQuotaUsage entityId quotaType session.now], .created table.length,
        .inserted k)
  | .created usage =>
      match refresh table usage with
      | .ok row => some (table, .loaded usage row.used, .loaded k)
      | .error e => some (table, .returned (.error e), .idle)
  | .loaded usage used => some (table, .assigned usage used (used + session.amount), .idle)
  | .assigned usage loaded used =>
      if used = loaded then some (table, .committed usage, .idle)
      else some (table.modify usage fun row => { row with used }, .committed usage, .wrote k)
  | .committed usage =>
      match refresh table usage with
      | .ok row => some (table, .returned (session.op.result row), .idle)
      | .error e => some (table, .returned (.error e), .idle)
  | .returned _ => none

structure QuotaSystem where
  table : QuotaTable
  sessions : List QuotaSession

/-- A step of the system: the session that takes it, and the row its query returns. -/
def QuotaSystem.step (entityId : Int) (quotaType : String) (s : QuotaSystem) (choice : Nat × Nat) :
    Option (QuotaSystem × QuotaEvent) := do
  let session ← s.sessions[choice.1]?
  let (table, phase, event) ← session.step entityId quotaType s.table choice.1 choice.2
  return ({ table, sessions := s.sessions.set choice.1 { session with phase } }, event)

inductive QuotaRun (entityId : Int) (quotaType : String) :
    QuotaSystem → List QuotaEvent → QuotaSystem → Prop
  | nil (s : QuotaSystem) : QuotaRun entityId quotaType s [] s
  | cons {s m t : QuotaSystem} {choice : Nat × Nat} {event : QuotaEvent}
      {rest : List QuotaEvent} (hstep : s.step entityId quotaType choice = some (m, event))
      (hrest : QuotaRun entityId quotaType m rest t) :
      QuotaRun entityId quotaType s (event :: rest) t

/-- The run of a schedule. -/
def QuotaSystem.run (entityId : Int) (quotaType : String) (s : QuotaSystem) :
    List (Nat × Nat) → Option (List QuotaEvent × QuotaSystem)
  | [] => some ([], s)
  | choice :: choices => do
      let (m, event) ← s.step entityId quotaType choice
      let (rest, t) ← m.run entityId quotaType choices
      return (event :: rest, t)

theorem quotaRun_of_run {entityId : Int} {quotaType : String} {s t : QuotaSystem}
    {choices : List (Nat × Nat)} {events : List QuotaEvent}
    (h : s.run entityId quotaType choices = some (events, t)) :
    QuotaRun entityId quotaType s events t := by
  induction choices generalizing s events with
  | nil =>
      obtain ⟨rfl, rfl⟩ := Prod.mk.inj (Option.some.inj h)
      exact .nil s
  | cons choice choices ih =>
      obtain ⟨⟨m, event⟩, hstep, h⟩ := Option.bind_eq_some_iff.mp h
      obtain ⟨⟨rest, t'⟩, hrest, h⟩ := Option.bind_eq_some_iff.mp h
      obtain ⟨rfl, rfl⟩ := Prod.mk.inj (Option.some.inj h)
      exact .cons hstep (ih hrest)

/-- The counters of the rows for an entity and quota type. -/
def usedRows (table : QuotaTable) (entityId : Int) (quotaType : String) : List Int :=
  (table.filter (·.isFor entityId quotaType)).map QuotaUsage.used

def QuotaSystem.total (s : QuotaSystem) : Int :=
  (s.sessions.map QuotaSession.amount).sum

def Phase.isReturned : Phase → Bool
  | .returned _ => true
  | _ => false

def QuotaSystem.AllReturned (s : QuotaSystem) : Prop :=
  ∀ session ∈ s.sessions, session.phase.isReturned = true

/-- There is exactly one row, and it has counted every amount. -/
def ExactTotal (entityId : Int) (quotaType : String) (s t : QuotaSystem) : Prop :=
  usedRows t.table entityId quotaType = [usedOf s.table entityId quotaType + s.total]

def QuotaEvent.isInserted : QuotaEvent → Bool
  | .inserted _ => true
  | _ => false

/-- The access to the counter that an event is. -/
def QuotaEvent.access : QuotaEvent → Option (Access Nat)
  | .loaded k => some (.read k)
  | .wrote k => some (.write k)
  | _ => none

/-- At most one session creates a row, and between a session's commit and the read that it is
    based on no other commit writes. -/
def Serial (events : List QuotaEvent) : Prop :=
  events.countP QuotaEvent.isInserted ≤ 1 ∧ Undisturbed (events.filterMap QuotaEvent.access)

/-! ## Rows -/

theorem filter_modify {α : Type} {p : α → Bool} {l : List α} {i : Nat} {a b : α} (f : α → α)
    (hget : l[i]? = some a) (ha : p a = true) (hf : p (f a) = true) (hone : l.filter p = [b]) :
    b = a ∧ (l.modify i f).filter p = [f a] := by
  induction l generalizing i with
  | nil => cases hget
  | cons x l ih =>
      cases i with
      | zero =>
          obtain rfl : x = a := by simpa using hget
          rw [List.filter_cons_of_pos ha] at hone
          obtain ⟨rfl, hrest⟩ := List.cons.inj hone
          rw [List.modify_zero_cons, List.filter_cons_of_pos hf, hrest]
          exact ⟨rfl, rfl⟩
      | succ i =>
          have hget' : l[i]? = some a := by simpa using hget
          by_cases hx : p x = true
          · -- Two elements would remain.
            rw [List.filter_cons_of_pos hx] at hone
            have hmem : a ∈ l.filter p :=
              List.mem_filter.mpr ⟨List.mem_of_getElem? hget', ha⟩
            rw [(List.cons.inj hone).2] at hmem
            exact absurd hmem List.not_mem_nil
          · rw [List.filter_cons_of_neg hx] at hone
            rw [List.modify_succ_cons, List.filter_cons_of_neg hx]
            exact ih hget' hone

section Rows

variable {table : QuotaTable} {entityId : Int} {quotaType : String}

theorem usedRows_append_new (now : Instant) :
    usedRows (table ++ [newQuotaUsage entityId quotaType now]) entityId quotaType =
      usedRows table entityId quotaType ++ [0] := by
  simp [usedRows, newQuotaUsage, QuotaUsage.isFor]

theorem usedRows_modify {usage : Nat} {row : QuotaUsage} {value : Int} (used : Int)
    (hget : table[usage]? = some row) (hrow : row.isFor entityId quotaType = true)
    (hone : usedRows table entityId quotaType = [value]) :
    row.used = value ∧
      usedRows (table.modify usage fun row => { row with used }) entityId quotaType = [used] := by
  obtain ⟨only, hfilter⟩ : ∃ only, table.filter (·.isFor entityId quotaType) = [only] := by
    have hlength := congrArg List.length hone
    unfold usedRows at hlength
    rw [List.length_map] at hlength
    exact List.length_eq_one_iff.mp hlength
  have hvalue : only.used = value := by
    unfold usedRows at hone
    rw [hfilter] at hone
    exact (List.cons.inj hone).1
  obtain ⟨rfl, hmodify⟩ := filter_modify (fun row => { row with used }) hget hrow hrow hfilter
  refine ⟨hvalue, ?_⟩
  unfold usedRows
  rw [hmodify]
  rfl

theorem length_usedRows_modify (usage : Nat) (used : Int) :
    (usedRows (table.modify usage fun row => { row with used }) entityId quotaType).length =
      (usedRows table entityId quotaType).length := by
  unfold usedRows
  rw [List.length_map, List.length_map, ← List.countP_eq_length_filter,
    ← List.countP_eq_length_filter]
  induction table generalizing usage with
  | nil => simp
  | cons row table ih =>
      cases usage with
      | zero => rfl
      | succ usage => rw [List.modify_succ_cons, List.countP_cons, List.countP_cons, ih]

theorem usedRows_eq_nil :
    usedRows table entityId quotaType = [] ↔ table.any (·.isFor entityId quotaType) = false := by
  simp [usedRows]

variable (table entityId quotaType) in
theorem head?_usedRows :
    ((usedRows table entityId quotaType).head?).getD 0 = usedOf table entityId quotaType := by
  unfold usedRows usedOf lookup
  rw [List.head?_map, List.head?_filter]

end Rows

/-! ## One step -/

/-- The row that a session works on. -/
def Phase.usage? : Phase → Option Nat
  | .created usage => some usage
  | .loaded usage _ => some usage
  | .assigned usage _ _ => some usage
  | .committed usage => some usage
  | _ => none

/-- What a session has read and not yet written back. -/
def Phase.read? : Phase → Option Int
  | .loaded _ used => some used
  | .assigned _ used _ => some used
  | _ => none

/-- A session whose commit is over. -/
def Phase.isCommitted : Phase → Bool
  | .committed _ => true
  | .returned _ => true
  | _ => false

def QuotaSystem.committed (s : QuotaSystem) : Int :=
  (s.sessions.map fun session => if session.phase.isCommitted then session.amount else 0).sum

/-- The amount of the session `k`, or the default amount. -/
def QuotaSystem.amount (s : QuotaSystem) (k : Nat) : Int :=
  (s.sessions[k]?.map QuotaSession.amount).getD 1

/-- A system with at most one row is a counter and its clients. -/
structure Tracks (entityId : Int) (quotaType : String) (s : QuotaSystem) (cell : Cell Nat Int) :
    Prop where
  rows : (usedRows s.table entityId quotaType = [] ∧ cell.value = 0) ∨
    usedRows s.table entityId quotaType = [cell.value]
  refs : ∀ session ∈ s.sessions, ∀ usage, session.phase.usage? = some usage →
    ∃ row, s.table[usage]? = some row ∧ row.isFor entityId quotaType = true
  returned : ∀ session ∈ s.sessions, ∀ result, session.phase = .returned result →
    usedRows s.table entityId quotaType ≠ []
  assigned : ∀ session ∈ s.sessions, ∀ usage loaded used,
    session.phase = .assigned usage loaded used → used = loaded + session.amount
  seen : ∀ k session v, s.sessions[k]? = some session → session.phase.read? = some v →
    cell.seen k = some v

theorem step_eq_some {entityId : Int} {quotaType : String} {s t : QuotaSystem}
    {choice : Nat × Nat} {event : QuotaEvent}
    (h : s.step entityId quotaType choice = some (t, event)) :
    ∃ session table phase, s.sessions[choice.1]? = some session ∧
      session.step entityId quotaType s.table choice.1 choice.2 = some (table, phase, event) ∧
      t = { table, sessions := s.sessions.set choice.1 { session with phase } } := by
  obtain ⟨session, hsession, h⟩ := Option.bind_eq_some_iff.mp h
  obtain ⟨⟨table, phase, event'⟩, hstep, h⟩ := Option.bind_eq_some_iff.mp h
  obtain ⟨rfl, rfl⟩ := Prod.mk.inj (Option.some.inj h)
  exact ⟨session, table, phase, hsession, hstep, rfl⟩

/-- The rows of the first table are rows of the second one. -/
def RowsStay (entityId : Int) (quotaType : String) (table table' : QuotaTable) : Prop :=
  ∀ (usage : Nat) (row : QuotaUsage), table[usage]? = some row →
    row.isFor entityId quotaType = true →
    ∃ row', table'[usage]? = some row' ∧ row'.isFor entityId quotaType = true

section Step

variable {entityId : Int} {quotaType : String} {s t : QuotaSystem} {choice : Nat × Nat}
  {event : QuotaEvent} {cell : Cell Nat Int}

theorem Tracks.used_eq (h : Tracks entityId quotaType s cell) {usage : Nat} {row : QuotaUsage}
    (hget : s.table[usage]? = some row) (hrow : row.isFor entityId quotaType = true) :
    usedRows s.table entityId quotaType = [cell.value] ∧ row.used = cell.value := by
  have hmem : row ∈ s.table.filter (·.isFor entityId quotaType) :=
    List.mem_filter.mpr ⟨List.mem_of_getElem? hget, hrow⟩
  rcases h.rows with ⟨hnone, -⟩ | hone
  · unfold usedRows at hnone
    rw [List.map_eq_nil_iff] at hnone
    rw [hnone] at hmem
    exact absurd hmem List.not_mem_nil
  · exact ⟨hone, (usedRows_modify 0 hget hrow hone).1⟩

/-- What a step of the session `k` has to show. -/
theorem Tracks.set (h : Tracks entityId quotaType s cell) {k : Nat} {session : QuotaSession}
    (hk : s.sessions[k]? = some session) {table : QuotaTable} {phase : Phase} {cell' : Cell Nat Int}
    (hrows : (usedRows table entityId quotaType = [] ∧ cell'.value = 0) ∨
      usedRows table entityId quotaType = [cell'.value])
    (hstay : RowsStay entityId quotaType s.table table)
    (hsome : usedRows s.table entityId quotaType ≠ [] → usedRows table entityId quotaType ≠ [])
    (hrefs : ∀ usage, phase.usage? = some usage →
      ∃ row, table[usage]? = some row ∧ row.isFor entityId quotaType = true)
    (hreturned : ∀ result, phase = .returned result → usedRows table entityId quotaType ≠ [])
    (hassigned : ∀ usage before used, phase = .assigned usage before used →
      used = before + session.amount)
    (hothers : ∀ j v, j ≠ k → cell.seen j = some v → cell'.seen j = some v)
    (hseen : ∀ v, phase.read? = some v → cell'.seen k = some v) :
    Tracks entityId quotaType ⟨table, s.sessions.set k { session with phase }⟩ cell' := by
  have hcases : ∀ x ∈ s.sessions.set k { session with phase },
      x ∈ s.sessions ∨ x = { session with phase } := fun x hx => List.mem_or_eq_of_mem_set hx
  refine ⟨hrows, ?_, ?_, ?_, ?_⟩
  · intro x hx usage husage
    rcases hcases x hx with hold | rfl
    · obtain ⟨row, hget, hrow⟩ := h.refs x hold usage husage
      exact hstay usage row hget hrow
    · exact hrefs usage husage
  · intro x hx result hresult
    rcases hcases x hx with hold | rfl
    · exact hsome (h.returned x hold result hresult)
    · exact hreturned result hresult
  · intro x hx usage before used hphase
    rcases hcases x hx with hold | rfl
    · exact h.assigned x hold usage before used hphase
    · exact hassigned usage before used hphase
  · intro j x v hj hread
    by_cases hjk : k = j
    · subst hjk
      have hlt : k < s.sessions.length := (List.getElem?_eq_some_iff.mp hk).1
      rw [List.getElem?_set_self hlt] at hj
      obtain rfl := Option.some.inj hj
      exact hseen v hread
    · rw [List.getElem?_set_ne hjk] at hj
      exact hothers j v (fun hsame => hjk hsame.symm) (h.seen j x v hj hread)

theorem sum_map_set {α : Type} (f : α → Int) {l : List α} {k : Nat} {a : α} (b : α)
    (hk : l[k]? = some a) : ((l.set k b).map f).sum + f a = (l.map f).sum + f b := by
  induction l generalizing k with
  | nil => cases hk
  | cons x l ih =>
      cases k with
      | zero =>
          obtain rfl : x = a := by simpa using hk
          simp only [List.set_cons_zero, List.map_cons, List.sum_cons]
          omega
      | succ k =>
          have hrest := ih (k := k) (by simpa using hk)
          simp only [List.set_cons_succ, List.map_cons, List.sum_cons]
          omega

theorem committed_set {k : Nat} {session : QuotaSession} (hk : s.sessions[k]? = some session)
    (table : QuotaTable) (phase : Phase) :
    QuotaSystem.committed ⟨table, s.sessions.set k { session with phase }⟩ +
        (if session.phase.isCommitted then session.amount else 0) =
      s.committed + if phase.isCommitted then session.amount else 0 :=
  sum_map_set (fun session => if session.phase.isCommitted then session.amount else 0)
    { session with phase } hk

/-- A step that leaves the table alone and accesses no counter. -/
theorem Tracks.set_idle (h : Tracks entityId quotaType s cell) {k : Nat} {session : QuotaSession}
    (hk : s.sessions[k]? = some session) {phase : Phase}
    (hrefs : ∀ usage, phase.usage? = some usage →
      ∃ row, s.table[usage]? = some row ∧ row.isFor entityId quotaType = true)
    (hreturned : ∀ result, phase = .returned result → usedRows s.table entityId quotaType ≠ [])
    (hassigned : ∀ usage before used, phase = .assigned usage before used →
      used = before + session.amount)
    (hseen : ∀ v, phase.read? = some v → cell.seen k = some v) :
    Tracks entityId quotaType ⟨s.table, s.sessions.set k { session with phase }⟩ cell :=
  h.set hk h.rows (fun _ row hget hrow => ⟨row, hget, hrow⟩) id hrefs hreturned hassigned
    (fun _ _ _ hj => hj) hseen

/-- A session that loads a row reads the counter. -/
theorem Tracks.set_loaded (h : Tracks entityId quotaType s cell) {k : Nat}
    {session : QuotaSession} (hk : s.sessions[k]? = some session) {usage : Nat}
    {row : QuotaUsage} (hget : s.table[usage]? = some row)
    (hrow : row.isFor entityId quotaType = true) :
    Tracks entityId quotaType
      ⟨s.table, s.sessions.set k { session with phase := .loaded usage row.used }⟩
      (cell.readBy k) := by
  obtain ⟨hone, hused⟩ := h.used_eq hget hrow
  refine h.set hk (.inr hone) (fun _ row hget hrow => ⟨row, hget, hrow⟩) id ?_ ?_ ?_ ?_ ?_
  · intro usage' husage
    obtain rfl : usage = usage' := by simpa [Phase.usage?] using husage
    exact ⟨row, hget, hrow⟩
  · intro result hresult
    cases hresult
  · intro usage' before used hphase
    cases hphase
  · intro j v hj hseen
    rw [seen_readBy_of_ne cell hj]
    exact hseen
  · intro v hread
    obtain rfl : row.used = v := by simpa [Phase.read?] using hread
    rw [seen_readBy_self, hused]

/-- A session that commits writes the counter. -/
theorem Tracks.set_wrote (h : Tracks entityId quotaType s cell) {k : Nat}
    {session : QuotaSession} (hk : s.sessions[k]? = some session) {usage : Nat}
    {row : QuotaUsage} (hget : s.table[usage]? = some row)
    (hrow : row.isFor entityId quotaType = true) (before amount : Int) :
    Tracks entityId quotaType
      ⟨s.table.modify usage fun row => { row with used := before + amount },
        s.sessions.set k { session with phase := .committed usage }⟩
      (cell.writeBy k before amount) := by
  obtain ⟨hone, -⟩ := h.used_eq hget hrow
  have hwrote := (usedRows_modify (before + amount) hget hrow hone).2
  have hstay : RowsStay entityId quotaType s.table
      (s.table.modify usage fun row => { row with used := before + amount }) := by
    intro usage' row' hget' hrow'
    by_cases hsame : usage = usage'
    · subst hsame
      have hmodify := List.getElem?_modify_eq (fun row : QuotaUsage =>
        { row with used := before + amount }) usage s.table
      rw [hget'] at hmodify
      exact ⟨_, hmodify, hrow'⟩
    · have hmodify := List.getElem?_modify_ne (fun row : QuotaUsage =>
        { row with used := before + amount }) s.table hsame
      rw [hget'] at hmodify
      exact ⟨row', hmodify, hrow'⟩
  refine h.set hk (.inr hwrote) hstay (fun _ => ?_) ?_ ?_ ?_ ?_ ?_
  · rw [hwrote]
    exact List.cons_ne_nil _ _
  · intro usage' husage
    obtain rfl : usage = usage' := by simpa [Phase.usage?] using husage
    exact hstay usage row hget hrow
  · intro result hresult
    cases hresult
  · intro usage' before' used hphase
    cases hphase
  · intro j v hj hseen
    rw [seen_writeBy_of_ne cell hj]
    exact hseen
  · intro v hread
    cases hread

/-- The session that finds no row creates the first one. -/
theorem Tracks.set_created (h : Tracks entityId quotaType s cell) {k : Nat}
    {session : QuotaSession} (hk : s.sessions[k]? = some session)
    (hnone : usedRows s.table entityId quotaType = []) :
    Tracks entityId quotaType
      ⟨s.table ++ [newQuotaUsage entityId quotaType session.now],
        s.sessions.set k { session with phase := .created s.table.length }⟩ cell := by
  have hvalue : cell.value = 0 := by
    rcases h.rows with ⟨-, hzero⟩ | hone
    · exact hzero
    · rw [hnone] at hone
      cases hone
  have hnew : usedRows (s.table ++ [newQuotaUsage entityId quotaType session.now]) entityId
      quotaType = [0] := by
    rw [usedRows_append_new, hnone]
    rfl
  refine h.set hk (.inr ?_) ?_ (fun _ => ?_) ?_ ?_ ?_ (fun _ _ _ hj => hj) ?_
  · rw [hnew, hvalue]
  · intro usage row hget hrow
    have hlt : usage < s.table.length := (List.getElem?_eq_some_iff.mp hget).1
    rw [List.getElem?_append_left hlt]
    exact ⟨row, hget, hrow⟩
  · rw [hnew]
    exact List.cons_ne_nil _ _
  · intro usage husage
    obtain rfl : s.table.length = usage := by simpa [Phase.usage?] using husage
    refine ⟨newQuotaUsage entityId quotaType session.now, by simp, ?_⟩
    simp [QuotaUsage.isFor, newQuotaUsage]
  · intro result hresult
    cases hresult
  · intro usage before used hphase
    cases hphase
  · intro v hread
    cases hread

/-- **One step.** While there is at most one row, a step reads the counter, writes it, or leaves
    it alone. -/
theorem tracks_step (h : Tracks entityId quotaType s cell)
    (hstep : s.step entityId quotaType choice = some (t, event))
    (hinsert : event.isInserted = true → usedRows s.table entityId quotaType = []) :
    ∃ cell', Runs s.amount cell event.access.toList cell' ∧ Tracks entityId quotaType t cell' ∧
      t.committed = s.committed + written s.amount event.access.toList := by
  obtain ⟨session, table, phase, hsession, hmove, rfl⟩ := step_eq_some hstep
  have hmem : session ∈ s.sessions := List.mem_of_getElem? hsession
  have hcommitted := committed_set hsession table phase
  unfold QuotaSession.step at hmove
  cases hphase : session.phase with
  | start =>
      simp only [hphase] at hmove
      split at hmove
      · cases hget : s.table[choice.2]? with
        | none => simp [hget] at hmove
        | some row =>
            simp only [hget] at hmove
            split at hmove
            · next hrow =>
              simp only [Option.some.injEq, Prod.mk.injEq] at hmove
              obtain ⟨rfl, rfl, rfl⟩ := hmove
              refine ⟨cell.readBy choice.1, .read (.nil _), h.set_loaded hsession hget hrow, ?_⟩
              simpa [hphase, Phase.isCommitted, QuotaEvent.access, written] using hcommitted
            · cases hmove
      · simp only [Option.some.injEq, Prod.mk.injEq] at hmove
        obtain ⟨rfl, rfl, rfl⟩ := hmove
        refine ⟨cell, .nil _, h.set_idle hsession ?_ ?_ ?_ ?_, ?_⟩
        · intro usage husage
          cases husage
        · intro result hresult
          cases hresult
        · intro usage before used hassigned
          cases hassigned
        · intro v hread
          cases hread
        · simpa [hphase, Phase.isCommitted, QuotaEvent.access, written] using hcommitted
  | missing =>
      simp only [hphase, Option.some.injEq, Prod.mk.injEq] at hmove
      obtain ⟨rfl, rfl, rfl⟩ := hmove
      refine ⟨cell, .nil _, h.set_created hsession (hinsert rfl), ?_⟩
      simpa [hphase, Phase.isCommitted, QuotaEvent.access, written] using hcommitted
  | created usage =>
      obtain ⟨row, hget, hrow⟩ := h.refs session hmem usage (by rw [hphase]; rfl)
      have hrefresh : refresh s.table usage = .ok row := by rw [refresh, hget]
      simp only [hphase, hrefresh, Option.some.injEq, Prod.mk.injEq] at hmove
      obtain ⟨rfl, rfl, rfl⟩ := hmove
      refine ⟨cell.readBy choice.1, .read (.nil _), h.set_loaded hsession hget hrow, ?_⟩
      simpa [hphase, Phase.isCommitted, QuotaEvent.access, written] using hcommitted
  | loaded usage used =>
      simp only [hphase, Option.some.injEq, Prod.mk.injEq] at hmove
      obtain ⟨rfl, rfl, rfl⟩ := hmove
      refine ⟨cell, .nil _, h.set_idle hsession ?_ ?_ ?_ ?_, ?_⟩
      · intro usage' husage
        exact h.refs session hmem usage' (by rw [hphase]; exact husage)
      · intro result hresult
        cases hresult
      · intro usage' before used' hassigned
        obtain ⟨-, rfl, rfl⟩ := Phase.assigned.inj hassigned
        rfl
      · intro v hread
        exact h.seen choice.1 session v hsession (by rw [hphase]; exact hread)
      · simpa [hphase, Phase.isCommitted, QuotaEvent.access, written] using hcommitted
  | assigned usage before used =>
      obtain ⟨row, hget, hrow⟩ := h.refs session hmem usage (by rw [hphase]; rfl)
      have hused := h.assigned session hmem usage before used hphase
      have hseen := h.seen choice.1 session before hsession (by rw [hphase]; rfl)
      have hamount : s.amount choice.1 = session.amount := by
        unfold QuotaSystem.amount
        rw [hsession]
        rfl
      simp only [hphase] at hmove
      split at hmove
      · next hsame =>
        -- Nothing is written, and there is nothing to add.
        have hzero : session.amount = 0 := by omega
        simp only [Option.some.injEq, Prod.mk.injEq] at hmove
        obtain ⟨rfl, rfl, rfl⟩ := hmove
        refine ⟨cell, .nil _, h.set_idle hsession ?_ ?_ ?_ ?_, ?_⟩
        · intro usage' husage
          exact h.refs session hmem usage' (by rw [hphase]; exact husage)
        · intro result hresult
          cases hresult
        · intro usage' before' used' hassigned
          cases hassigned
        · intro v hread
          cases hread
        · simpa [hphase, Phase.isCommitted, QuotaEvent.access, written, hzero] using hcommitted
      · simp only [Option.some.injEq, Prod.mk.injEq] at hmove
        obtain ⟨rfl, rfl, rfl⟩ := hmove
        rw [hused]
        rw [hused] at hcommitted
        refine ⟨cell.writeBy choice.1 before session.amount, ?_,
          h.set_wrote hsession hget hrow before session.amount, ?_⟩
        · rw [← hamount]
          exact .write hseen (.nil _)
        · simpa [hphase, Phase.isCommitted, QuotaEvent.access, written, hamount] using hcommitted
  | committed usage =>
      obtain ⟨row, hget, hrow⟩ := h.refs session hmem usage (by rw [hphase]; rfl)
      have hrefresh : refresh s.table usage = .ok row := by rw [refresh, hget]
      simp only [hphase, hrefresh, Option.some.injEq, Prod.mk.injEq] at hmove
      obtain ⟨rfl, rfl, rfl⟩ := hmove
      refine ⟨cell, .nil _, h.set_idle hsession ?_ ?_ ?_ ?_, ?_⟩
      · intro usage' husage
        cases husage
      · intro result hresult
        rw [(h.used_eq hget hrow).1]
        exact List.cons_ne_nil _ _
      · intro usage' before used hassigned
        cases hassigned
      · intro v hread
        cases hread
      · simpa [hphase, Phase.isCommitted, QuotaEvent.access, written] using hcommitted
  | returned result => simp [hphase] at hmove

end Step

/-! ## Whole runs -/

section Run

variable {entityId : Int} {quotaType : String} {s t : QuotaSystem} {choice : Nat × Nat}
  {event : QuotaEvent} {events : List QuotaEvent} {cell : Cell Nat Int}

/-- A step creates a row, changes a counter, or leaves the table alone. -/
theorem table_of_step {table table' : QuotaTable} {k pick : Nat} {session : QuotaSession}
    {phase : Phase}
    (h : session.step entityId quotaType table k pick = some (table', phase, event)) :
    (event.isInserted = true ∧ session.phase = .missing ∧
        ∃ now, table' = table ++ [newQuotaUsage entityId quotaType now]) ∨
      (event.isInserted = false ∧
        (table' = table ∨
          ∃ usage used, table' = table.modify usage fun row => { row with used })) := by
  unfold QuotaSession.step at h
  cases hphase : session.phase with
  | missing =>
      simp only [hphase, Option.some.injEq, Prod.mk.injEq] at h
      obtain ⟨rfl, -, rfl⟩ := h
      exact .inl ⟨rfl, rfl, _, rfl⟩
  | assigned usage before used =>
      simp only [hphase] at h
      split at h
      · simp only [Option.some.injEq, Prod.mk.injEq] at h
        obtain ⟨rfl, -, rfl⟩ := h
        exact .inr ⟨rfl, .inl rfl⟩
      · simp only [Option.some.injEq, Prod.mk.injEq] at h
        obtain ⟨rfl, -, rfl⟩ := h
        exact .inr ⟨rfl, .inr ⟨usage, used, rfl⟩⟩
  | loaded usage used =>
      simp only [hphase, Option.some.injEq, Prod.mk.injEq] at h
      obtain ⟨rfl, -, rfl⟩ := h
      exact .inr ⟨rfl, .inl rfl⟩
  | returned result => simp [hphase] at h
  | start | created | committed =>
      simp only [hphase] at h
      right
      split at h <;> grind [QuotaEvent.isInserted]

/-- Only the query finds no row. -/
theorem missing_of_step {table table' : QuotaTable} {k pick : Nat} {session : QuotaSession}
    (h : session.step entityId quotaType table k pick = some (table', .missing, event)) :
    usedRows table entityId quotaType = [] := by
  rw [usedRows_eq_nil]
  unfold QuotaSession.step at h
  cases hphase : session.phase with
  | start =>
      simp only [hphase] at h
      split at h
      · split at h
        · split at h
          · cases h
          · cases h
        · cases h
      · next hnone => simpa using hnone
  | missing | loaded | returned => simp [hphase] at h
  | assigned | created | committed =>
      simp only [hphase] at h
      split at h <;> cases h

theorem rows_of_step (h : s.step entityId quotaType choice = some (t, event)) :
    (usedRows t.table entityId quotaType).length =
      (usedRows s.table entityId quotaType).length + if event.isInserted then 1 else 0 := by
  obtain ⟨session, table, phase, -, hmove, rfl⟩ := step_eq_some h
  rcases table_of_step hmove with ⟨hinserted, -, now, rfl⟩ | ⟨hnot, rfl | ⟨usage, used, rfl⟩⟩
  · rw [hinserted, usedRows_append_new, List.length_append]
    rfl
  · rw [hnot]
    rfl
  · rw [hnot, length_usedRows_modify]
    rfl

theorem rows_of_run (h : QuotaRun entityId quotaType s events t) :
    (usedRows t.table entityId quotaType).length =
      (usedRows s.table entityId quotaType).length + events.countP QuotaEvent.isInserted := by
  induction h with
  | nil s => rfl
  | cons hstep hrest ih =>
      rw [ih, rows_of_step hstep, List.countP_cons]
      omega

theorem amounts_of_step (h : s.step entityId quotaType choice = some (t, event)) :
    t.sessions.map QuotaSession.amount = s.sessions.map QuotaSession.amount := by
  obtain ⟨session, table, phase, hsession, -, rfl⟩ := step_eq_some h
  show (s.sessions.set choice.1 { session with phase }).map QuotaSession.amount = _
  rw [List.map_set]
  apply List.ext_getElem?
  intro i
  by_cases hi : choice.1 = i
  · subst hi
    have hlt : choice.1 < s.sessions.length := (List.getElem?_eq_some_iff.mp hsession).1
    rw [List.getElem?_set_self (by simpa using hlt), List.getElem?_map, hsession]
    rfl
  · rw [List.getElem?_set_ne hi]

theorem amounts_of_run (h : QuotaRun entityId quotaType s events t) :
    t.sessions.map QuotaSession.amount = s.sessions.map QuotaSession.amount := by
  induction h with
  | nil s => rfl
  | cons hstep hrest ih => rw [ih, amounts_of_step hstep]

theorem amount_of_step (h : s.step entityId quotaType choice = some (t, event)) :
    t.amount = s.amount := by
  funext k
  unfold QuotaSystem.amount
  rw [← List.getElem?_map, ← List.getElem?_map, amounts_of_step h]

theorem filterMap_access_cons (event : QuotaEvent) (events : List QuotaEvent) :
    (event :: events).filterMap QuotaEvent.access =
      event.access.toList ++ events.filterMap QuotaEvent.access := by
  rw [List.filterMap_cons]
  cases event.access <;> rfl

/-- **Whole runs.** While there is at most one row, the run is one of clients on a counter. -/
theorem tracks_run (h : QuotaRun entityId quotaType s events t)
    (htracks : Tracks entityId quotaType s cell)
    (hone : (usedRows s.table entityId quotaType).length +
      events.countP QuotaEvent.isInserted ≤ 1) :
    ∃ cell', Runs s.amount cell (events.filterMap QuotaEvent.access) cell' ∧
      Tracks entityId quotaType t cell' ∧
      t.committed = s.committed + written s.amount (events.filterMap QuotaEvent.access) := by
  induction h generalizing cell with
  | nil s => exact ⟨cell, .nil _, htracks, (add_zero _).symm⟩
  | @cons s m t choice event rest hstep hrest ih =>
      have hrows := rows_of_step hstep
      rw [List.countP_cons] at hone
      have hinsert : event.isInserted = true → usedRows s.table entityId quotaType = [] := by
        intro hinserted
        rw [if_pos hinserted] at hone
        exact List.eq_nil_of_length_eq_zero (by omega)
      obtain ⟨cell₁, hfirst, htracks₁, hcommitted₁⟩ := tracks_step htracks hstep hinsert
      obtain ⟨cell₂, hlater, htracks₂, hcommitted₂⟩ := ih htracks₁ (by omega)
      rw [amount_of_step hstep] at hlater hcommitted₂
      refine ⟨cell₂, ?_, htracks₂, ?_⟩
      · rw [filterMap_access_cons]
        exact runs_append.mpr ⟨cell₁, hfirst, hlater⟩
      · rw [filterMap_access_cons, written_append, ← add_assoc, ← hcommitted₁]
        exact hcommitted₂

/-- Where there is a row, no session finds none. -/
theorem not_inserted_of_rows (h : QuotaRun entityId quotaType s events t)
    (hrows : usedRows s.table entityId quotaType ≠ [])
    (hmissing : ∀ session ∈ s.sessions, session.phase ≠ .missing) :
    events.countP QuotaEvent.isInserted = 0 := by
  induction h with
  | nil s => rfl
  | @cons s m t choice event rest hstep hrest ih =>
      have hlength := rows_of_step hstep
      obtain ⟨session, table, phase, hsession, hmove, rfl⟩ := step_eq_some hstep
      have hmem : session ∈ s.sessions := List.mem_of_getElem? hsession
      have hnot : event.isInserted = false := by
        rcases table_of_step hmove with ⟨-, hphase, -⟩ | ⟨hnot, -⟩
        · exact absurd hphase (hmissing session hmem)
        · exact hnot
      have hrows' : usedRows table entityId quotaType ≠ [] := by
        intro hnil
        rw [hnil, hnot] at hlength
        exact hrows (List.eq_nil_of_length_eq_zero hlength.symm)
      have hmissing' : ∀ x ∈ s.sessions.set choice.1 { session with phase },
          x.phase ≠ .missing := by
        intro x hx hphase
        rcases List.mem_or_eq_of_mem_set hx with hold | rfl
        · exact hmissing x hold hphase
        · obtain rfl : phase = .missing := hphase
          exact hrows (missing_of_step hmove)
      rw [List.countP_cons, ih hrows' hmissing', hnot]
      rfl

theorem committed_of_start (hstart : ∀ session ∈ s.sessions, session.phase = .start) :
    s.committed = 0 := by
  unfold QuotaSystem.committed
  apply List.sum_eq_zero
  intro x hx
  obtain ⟨session, hmem, rfl⟩ := List.mem_map.mp hx
  rw [hstart session hmem]
  rfl

theorem eq_returned {phase : Phase} (h : phase.isReturned = true) :
    ∃ result, phase = .returned result := by
  cases phase with
  | returned result => exact ⟨result, rfl⟩
  | _ => cases h

theorem committed_of_returned (hdone : s.AllReturned) : s.committed = s.total := by
  unfold QuotaSystem.committed QuotaSystem.total
  refine congrArg List.sum (List.map_congr_left ?_)
  intro session hmem
  obtain ⟨result, hresult⟩ := eq_returned (hdone session hmem)
  rw [hresult]
  rfl

/-- Before the first step, the counter holds what is stored, and nobody has read it. -/
theorem tracks_start (hstart : ∀ session ∈ s.sessions, session.phase = .start)
    (hrows : (usedRows s.table entityId quotaType).length ≤ 1) :
    Tracks entityId quotaType s ⟨usedOf s.table entityId quotaType, fun _ => none⟩ := by
  have hvalue := head?_usedRows s.table entityId quotaType
  refine ⟨?_, ?_, ?_, ?_, ?_⟩
  · cases hused : usedRows s.table entityId quotaType with
    | nil =>
        rw [hused] at hvalue
        exact .inl ⟨rfl, hvalue.symm⟩
    | cons v rest =>
        rw [hused] at hvalue hrows
        obtain rfl : rest = [] := by
          rw [List.length_cons] at hrows
          exact List.eq_nil_of_length_eq_zero (by omega)
        exact .inr (congrArg (· :: []) hvalue)
  · intro session hmem usage husage
    rw [hstart session hmem] at husage
    cases husage
  · intro session hmem result hresult
    rw [hstart session hmem] at hresult
    cases hresult
  · intro session hmem usage before used hphase
    rw [hstart session hmem] at hphase
    cases hphase
  · intro k session v hk hread
    rw [hstart session (List.mem_of_getElem? hk)] at hread
    cases hread

/-- **No lost update.** Serial runs of sessions that all return leave one row that has counted
    every amount. Where all amounts are positive, only serial runs do. -/
theorem exactTotal_of_serial (h : QuotaRun entityId quotaType s events t)
    (hstart : ∀ session ∈ s.sessions, session.phase = .start)
    (hrows : (usedRows s.table entityId quotaType).length ≤ 1)
    (hsome : s.sessions ≠ []) (hdone : t.AllReturned) :
    (Serial events → ExactTotal entityId quotaType s t) ∧
      ((∀ session ∈ s.sessions, 0 < session.amount) → ExactTotal entityId quotaType s t →
        Serial events) := by
  have htracks := tracks_start hstart hrows
  have htotal : t.committed = s.total := by
    rw [committed_of_returned hdone]
    exact congrArg List.sum (amounts_of_run h)
  constructor
  · rintro ⟨hinserted, hundisturbed⟩
    have hone : (usedRows s.table entityId quotaType).length +
        events.countP QuotaEvent.isInserted ≤ 1 := by
      by_cases hnil : usedRows s.table entityId quotaType = []
      · rw [hnil]
        exact (Nat.zero_add _).le.trans hinserted
      · have hmissing : ∀ session ∈ s.sessions, session.phase ≠ .missing := by
          intro session hmem hphase
          rw [hstart session hmem] at hphase
          cases hphase
        rw [not_inserted_of_rows h hnil hmissing]
        exact hrows
    obtain ⟨cell, hruns, htracks', hcommitted⟩ := tracks_run h htracks hone
    have hvalue := value_of_undisturbed hruns hundisturbed
    rw [committed_of_start hstart, zero_add] at hcommitted
    -- Some session has returned, so there is a row.
    have hlength := congrArg List.length (amounts_of_run h)
    rw [List.length_map, List.length_map] at hlength
    obtain ⟨session, hsession⟩ : ∃ session, session ∈ t.sessions := by
      apply List.exists_mem_of_ne_nil
      intro hnil
      rw [hnil] at hlength
      exact hsome (List.eq_nil_of_length_eq_zero hlength.symm)
    obtain ⟨result, hresult⟩ := eq_returned (hdone session hsession)
    rcases htracks'.rows with ⟨hnil, -⟩ | hrow
    · exact absurd hnil (htracks'.returned session hsession result hresult)
    · unfold ExactTotal
      rw [hrow, hvalue, ← htotal, hcommitted]
  · intro hpositive hexact
    have hlength := rows_of_run h
    rw [hexact, List.length_singleton] at hlength
    refine ⟨by omega, ?_⟩
    obtain ⟨cell, hruns, htracks', hcommitted⟩ := tracks_run h htracks (by omega)
    rw [committed_of_start hstart, zero_add] at hcommitted
    by_contra hdisturbed
    have hamount : ∀ k, 0 < s.amount k := by
      intro k
      unfold QuotaSystem.amount
      cases hk : s.sessions[k]? with
      | none => exact Int.one_pos
      | some session => exact hpositive session (List.mem_of_getElem? hk)
    have hlost := value_lt_of_disturbed hamount (fun _ => rfl) hruns hdisturbed
    have hvalue : cell.value = usedOf s.table entityId quotaType + s.total := by
      rcases htracks'.rows with ⟨hnil, -⟩ | hrow
      · rw [hexact] at hnil
        cases hnil
      · rw [hexact] at hrow
        exact (List.cons.inj hrow).1.symm
    rw [hvalue, ← htotal, hcommitted] at hlost
    exact absurd hlost (lt_irrefl _)

end Run

/-! ## Two sessions -/

def twoIncrements : QuotaSystem :=
  { table := []
    sessions := [⟨.increment, 5, midnight, .start⟩, ⟨.enforce (some 10), 7, midnight, .start⟩] }

/-- The second session starts when the first one has returned. -/
def inTurn : List (Nat × Nat) :=
  [(0, 0), (0, 0), (0, 0), (0, 0), (0, 0), (0, 0), (1, 0), (1, 0), (1, 0), (1, 0)]

/-- Both sessions load the row before either commits. -/
def atOnce : List (Nat × Nat) :=
  [(0, 0), (0, 0), (0, 0), (1, 0), (0, 0), (0, 0), (0, 0), (1, 0), (1, 0), (1, 0)]

theorem exactTotal_inTurn :
    ∃ events t, QuotaRun 1 "ai_tokens" twoIncrements events t ∧
      ExactTotal 1 "ai_tokens" twoIncrements t := by
  have hrun : ∃ t, twoIncrements.run 1 "ai_tokens" inTurn =
      some ([.idle, .inserted 0, .loaded 0, .idle, .wrote 0, .idle, .loaded 1, .idle, .wrote 1,
        .idle], t) ∧ t.AllReturned := by
    refine ⟨_, rfl, ?_⟩
    unfold QuotaSystem.AllReturned
    decide
  obtain ⟨t, hrun, hdone⟩ := hrun
  have hquota := quotaRun_of_run hrun
  have hstart : ∀ session ∈ twoIncrements.sessions, session.phase = .start := by
    simp [twoIncrements]
  have hserial : Undisturbed [Access.read 0, .write 0, .read 1, .write 1] :=
    (undisturbed_nil.concat 0).concat 1
  exact ⟨_, t, hquota,
    (exactTotal_of_serial hquota hstart (by decide) (List.cons_ne_nil _ _) hdone).1
      ⟨by decide, hserial⟩⟩

/-- Both sessions return, and the amount of the first is lost. -/
theorem not_exactTotal_atOnce :
    ∃ events t, QuotaRun 1 "ai_tokens" twoIncrements events t ∧ t.AllReturned ∧
      ¬ ExactTotal 1 "ai_tokens" twoIncrements t := by
  have hrun : ∃ events t, twoIncrements.run 1 "ai_tokens" atOnce = some (events, t) ∧
      t.AllReturned ∧ ¬ ExactTotal 1 "ai_tokens" twoIncrements t := by
    refine ⟨_, _, rfl, ?_, ?_⟩
    · unfold QuotaSystem.AllReturned
      decide
    · unfold ExactTotal
      decide
  obtain ⟨events, t, hrun, hdone, hlost⟩ := hrun
  exact ⟨events, t, quotaRun_of_run hrun, hdone, hlost⟩

end AgentCorp.Security
