/-
  The in-memory metric backend: counters and gauges, kept under the string of their tags.

  * `valueAt_setIn`: what a call leaves under each name and each tag string.
  * `plain_iff`: which tag maps have a tag string of their own.
  * `keepsSeries_concat_iff`: what one more call does to series that were kept apart.
  * `keepsSeries_iff`: which sequences of calls keep the series apart throughout.
  * `samples_afterCalls`: the histograms keep the tag maps, and so mix nothing.
-/
import AgentCorp.Lib.EncodedSeries
import AgentCorp.Lib.Grouping
import AgentCorp.Python.Values
import Mathlib.Data.List.Sort
import Mathlib.Data.Prod.Lex
import Mathlib.Data.String.Basic

namespace AgentCorp.Observability

open AgentCorp.Python
open Grouping (upsert lookup_upsert)
open EncodedSeries (held own Exact foldOf foldOf_concat)

/-! ## InMemoryMetricBackend -/

/-- A `Dict[str, str]`. -/
structure TagMap where
  entries : Dict String
  nodup : (entries.map Prod.fst).Nodup
  deriving DecidableEq, Repr

namespace TagMap

def empty : TagMap :=
  ⟨[], List.nodup_nil⟩

/-- Equality of dictionaries, which does not look at the order of the entries. -/
def Same (t u : TagMap) : Prop :=
  t.entries.Perm u.entries

instance : DecidableRel Same :=
  fun t u => inferInstanceAs (Decidable (t.entries.Perm u.entries))

/-- `sorted(tags.items())`. -/
def sortedItems (t : TagMap) : List (String × String) :=
  t.entries.insertionSort fun a b => toLex a ≤ toLex b

end TagMap

/-- `f"{k}={v}"`. -/
def tagText (entry : String × String) : String :=
  entry.1 ++ "=" ++ entry.2

/-- `_get_tag_string`. -/
def getTagString : Option TagMap → String
  | none => ""
  | some tags =>
      if tags.entries = [] then "" else ",".intercalate (tags.sortedItems.map tagText)

/-- `tags or {}`. -/
def tagsOr (tags : Option TagMap) : TagMap :=
  tags.getD .empty

structure Sample where
  timestamp : String
  value : Rat
  tags : TagMap
  deriving DecidableEq, Repr

structure MetricBackend where
  counters : Dict (Dict Int)
  gauges : Dict (Dict Rat)
  histograms : Dict (List Sample)
  deriving DecidableEq, Repr

/-- `InMemoryMetricBackend.__init__`. -/
def MetricBackend.start : MetricBackend :=
  ⟨[], [], []⟩

section Nested

variable {β : Type}

/-- Update the value under a name and a key, in a dictionary that is added if it is missing. -/
def setIn (d : Dict (Dict β)) (name key : String) (first : β) (step : β → β) : Dict (Dict β) :=
  upsert d name (upsert [] key first step) fun values => upsert values key first step

def valueAt (d : Dict (Dict β)) (name key : String) : Option β :=
  ((d.lookup name).getD []).lookup key

theorem valueAt_setIn (d : Dict (Dict β)) (name key : String) (first : β) (step : β → β)
    (code : String × String) :
    valueAt (setIn d name key first step) code.1 code.2 =
      if (name, key) = code then some ((valueAt d code.1 code.2).elim first step)
      else valueAt d code.1 code.2 := by
  obtain ⟨other, otherKey⟩ := code
  unfold valueAt setIn
  rw [lookup_upsert]
  by_cases hname : other = name
  · subst hname
    have hvalues : (some ((d.lookup other).elim (upsert [] key first step)
        fun values => upsert values key first step)).getD [] =
        upsert ((d.lookup other).getD []) key first step := by
      cases d.lookup other <;> rfl
    rw [if_pos rfl, hvalues, lookup_upsert]
    by_cases hkey : otherKey = key
    · rw [if_pos hkey, if_pos (by rw [hkey]), hkey]
    · rw [if_neg hkey, if_neg fun h => hkey (Prod.mk.inj h).2.symm]
  · rw [if_neg hname, if_neg fun h => hname (Prod.mk.inj h).1.symm]

end Nested

def recordCounter (backend : MetricBackend) (name : String) (value : Int)
    (tags : Option TagMap) : MetricBackend :=
  { backend with
    counters := setIn backend.counters name (getTagString tags) (0 + value) (· + value) }

def recordGauge (backend : MetricBackend) (name : String) (value : Rat)
    (tags : Option TagMap) : MetricBackend :=
  { backend with
    gauges := setIn backend.gauges name (getTagString tags) value fun _ => value }

def recordHistogram (backend : MetricBackend) (timestamp name : String) (value : Rat)
    (tags : Option TagMap) : MetricBackend :=
  { backend with
    histograms := upsert backend.histograms name [⟨timestamp, value, tagsOr tags⟩]
      (· ++ [⟨timestamp, value, tagsOr tags⟩]) }

/-! ## Calls -/

inductive MetricCall where
  | counter (name : String) (value : Int) (tags : Option TagMap)
  | gauge (name : String) (value : Rat) (tags : Option TagMap)
  | histogram (timestamp name : String) (value : Rat) (tags : Option TagMap)
  deriving DecidableEq, Repr

namespace MetricCall

def record (backend : MetricBackend) : MetricCall → MetricBackend
  | counter name value tags => recordCounter backend name value tags
  | gauge name value tags => recordGauge backend name value tags
  | histogram timestamp name value tags => recordHistogram backend timestamp name value tags

/-- The name and the tag map that a call is for. -/
def series : MetricCall → String × TagMap
  | counter name _ tags => (name, tagsOr tags)
  | gauge name _ tags => (name, tagsOr tags)
  | histogram _ name _ tags => (name, tagsOr tags)

/-- What a call adds to a counter. -/
def increment : MetricCall → Int
  | counter _ value _ => value
  | _ => 0

/-- What a call sets a gauge to. -/
def reading : MetricCall → Option Rat
  | gauge _ value _ => some value
  | _ => none

/-- The sample that a call adds to a histogram. -/
def sample : MetricCall → Option Sample
  | histogram timestamp _ value tags => some ⟨timestamp, value, tagsOr tags⟩
  | _ => none

end MetricCall

def afterCalls (calls : List MetricCall) : MetricBackend :=
  calls.foldl MetricCall.record MetricBackend.start

/-- The same name, and equal tag maps. -/
def SameSeries (s t : String × TagMap) : Prop :=
  s.1 = t.1 ∧ s.2.Same t.2

instance : DecidableRel SameSeries :=
  fun s t => inferInstanceAs (Decidable (s.1 = t.1 ∧ s.2.Same t.2))

/-- The calls of one series. -/
def callsOf (calls : List MetricCall) (s : String × TagMap) : List MetricCall :=
  calls.filter fun call => SameSeries call.series s

/-- What the backend holds for the key of a tag map. -/
def counterValue (backend : MetricBackend) (s : String × TagMap) : Int :=
  (valueAt backend.counters s.1 (getTagString (some s.2))).getD 0

def gaugeValue (backend : MetricBackend) (s : String × TagMap) : Option Rat :=
  valueAt backend.gauges s.1 (getTagString (some s.2))

/-- The counters are the sums of exactly their own increments, the gauges their own last
    readings. -/
structure KeepsSeries (calls : List MetricCall) : Prop where
  counter : ∀ s, counterValue (afterCalls calls) s =
    ((callsOf calls s).map MetricCall.increment).sum
  gauge : ∀ s, gaugeValue (afterCalls calls) s =
    ((callsOf calls s).filterMap MetricCall.reading).getLast?

/-! ## Tag strings -/

namespace TagMap

/-- The tag map of one tag. -/
def single (key value : String) : TagMap :=
  ⟨[(key, value)], List.nodup_singleton key⟩

/-- The map has no tags, or one without an equals sign. -/
def Plain (t : TagMap) : Prop :=
  match t.entries with
  | [] => True
  | [(key, value)] => '=' ∉ key.toList ∧ '=' ∉ value.toList
  | _ => False

variable {t u : TagMap}

theorem Same.sortedItems_eq (h : t.Same u) : t.sortedItems = u.sortedItems := by
  have hperm : t.sortedItems.Perm u.sortedItems :=
    (List.perm_insertionSort _ _).trans (h.trans (List.perm_insertionSort _ _).symm)
  refine hperm.eq_of_pairwise (fun a b _ _ hab hba => ?_)
    (List.pairwise_insertionSort _ _) (List.pairwise_insertionSort _ _)
  exact toLex.injective (le_antisymm hab hba)

theorem getTagString_some (t : TagMap) :
    getTagString (some t) =
      if t.entries = [] then "" else ",".intercalate (t.sortedItems.map tagText) :=
  rfl

theorem Same.getTagString_eq (h : t.Same u) : getTagString (some t) = getTagString (some u) := by
  have hempty : t.entries = [] ↔ u.entries = [] := by
    rw [← List.length_eq_zero_iff, ← List.length_eq_zero_iff, List.Perm.length_eq h]
  rw [getTagString_some, getTagString_some, h.sortedItems_eq]
  exact if_congr hempty rfl rfl

theorem length_sortedItems (t : TagMap) : t.sortedItems.length = t.entries.length :=
  List.length_insertionSort _ _

theorem getTagString_of_ne_nil (h : t.entries ≠ []) :
    getTagString (some t) = ",".intercalate (t.sortedItems.map tagText) :=
  if_neg h

theorem getTagString_single (key value : String) :
    getTagString (some (single key value)) = key ++ "=" ++ value := by
  rw [getTagString_of_ne_nil (by simp [single])]
  exact String.intercalate_singleton

/-- Every tag brings an equals sign. -/
theorem length_le_count (items : List (String × String)) :
    items.length ≤ (",".intercalate (items.map tagText)).toList.count '=' := by
  induction items with
  | nil => simp
  | cons item items ih =>
      have hitem : 1 ≤ (tagText item).toList.count '=' := by
        simp [tagText, List.count_append]
        omega
      match items with
      | [] => simpa using hitem
      | next :: rest =>
          rw [List.map_cons, List.map_cons, String.intercalate_cons_cons, ← List.map_cons]
          simp only [String.toList_append, List.count_append, List.length_cons] at ih ⊢
          omega

theorem entries_length_le (t : TagMap) :
    t.entries.length ≤ (getTagString (some t)).toList.count '=' := by
  by_cases h : t.entries = []
  · simp [h]
  · rw [getTagString_of_ne_nil h, ← length_sortedItems]
    exact length_le_count _

theorem same_single_iff {key value : String} :
    t.Same (single key value) ↔ t.entries = [(key, value)] :=
  List.perm_singleton

/-- A map with a plain string is the only one with its string. -/
theorem Plain.same (h : t.Plain) (hstring : getTagString (some t) = getTagString (some u)) :
    t.Same u := by
  have hcount := entries_length_le u
  rw [← hstring] at hcount
  unfold Plain at h
  match ht : t.entries with
  | [] =>
      rw [getTagString_some, if_pos ht] at hcount
      have hnone : u.entries = [] := List.length_eq_zero_iff.mp (by simpa using hcount)
      rw [Same, ht, hnone]
  | [(key, value)] =>
      rw [ht] at h
      have htext : getTagString (some t) = key ++ "=" ++ value := by
        rw [(same_single_iff.mpr ht).getTagString_eq, getTagString_single]
      have hlength : u.entries.length ≤ 1 := by
        rw [htext] at hcount
        simpa [List.count_append, List.count_eq_zero_of_not_mem h.1,
          List.count_eq_zero_of_not_mem h.2] using hcount
      match hu : u.entries with
      | [] =>
          rw [htext, getTagString_some, if_pos hu] at hstring
          simp at hstring
      | [(otherKey, otherValue)] =>
          rw [htext, (same_single_iff.mpr hu).getTagString_eq, getTagString_single] at hstring
          have hlist := congrArg String.toList hstring
          have hequals : "=".toList = ['='] := rfl
          simp only [String.toList_append, hequals, List.append_assoc,
            List.singleton_append] at hlist
          obtain ⟨hkey, -, hvalue⟩ := (List.append_cons_inj_of_notMem h.1 h.2).mp hlist
          rw [Same, ht, hu, String.toList_inj.mp hkey, String.toList_inj.mp hvalue]
      | _ :: _ :: _ =>
          rw [hu] at hlength
          simp at hlength
  | _ :: _ :: _ =>
      rw [ht] at h
      exact h.elim

/-- A tag whose string is the one of a tag with a key of another length. -/
theorem exists_other_of_length {key value otherKey otherValue : String}
    (ht : t.entries = [(key, value)])
    (htext : key ++ "=" ++ value = otherKey ++ "=" ++ otherValue)
    (hlength : key.length ≠ otherKey.length) :
    ∃ u, getTagString (some t) = getTagString (some u) ∧ ¬ t.Same u := by
  refine ⟨single otherKey otherValue, ?_, fun hsame => ?_⟩
  · rw [(same_single_iff.mpr ht).getTagString_eq, getTagString_single, getTagString_single]
    exact htext
  · rw [same_single_iff, ht, List.cons.injEq, Prod.mk.injEq] at hsame
    exact hlength (congrArg String.length hsame.1.1)

/-- A key with an equals sign has its string split at another place. -/
theorem exists_other_of_key {key value : String} (ht : t.entries = [(key, value)])
    (hkey : '=' ∈ key.toList) :
    ∃ u, getTagString (some t) = getTagString (some u) ∧ ¬ t.Same u := by
  obtain ⟨front, back, hsplit⟩ := List.append_of_mem hkey
  have htext : key ++ "=" ++ value = .ofList front ++ "=" ++ (.ofList back ++ "=" ++ value) := by
    apply String.toList_inj.mp
    simp [hsplit]
  refine exists_other_of_length ht htext ?_
  rw [← String.length_toList, hsplit]
  simp

theorem exists_other_of_value {key value : String} (ht : t.entries = [(key, value)])
    (hvalue : '=' ∈ value.toList) :
    ∃ u, getTagString (some t) = getTagString (some u) ∧ ¬ t.Same u := by
  obtain ⟨front, back, hsplit⟩ := List.append_of_mem hvalue
  have htext : key ++ "=" ++ value = key ++ "=" ++ .ofList front ++ "=" ++ .ofList back := by
    apply String.toList_inj.mp
    simp [hsplit]
  refine exists_other_of_length ht htext ?_
  have hequals : "=".length = 1 := rfl
  simp only [String.length_append]
  omega

/-- The tags after the first one may as well be a part of its value. -/
theorem exists_other_of_two (h : 2 ≤ t.entries.length) :
    ∃ u, getTagString (some t) = getTagString (some u) ∧ ¬ t.Same u := by
  have hne : t.entries ≠ [] := by
    intro hnil
    simp [hnil] at h
  match hitems : t.sortedItems with
  | [] | [_] =>
      have hlength := length_sortedItems t
      rw [hitems] at hlength
      simp at hlength
      omega
  | (key, value) :: next :: rest =>
      refine ⟨single key (value ++ "," ++ ",".intercalate ((next :: rest).map tagText)), ?_,
        fun hsame => ?_⟩
      · rw [getTagString_of_ne_nil hne, getTagString_single, hitems, List.map_cons, List.map_cons,
          String.intercalate_cons_cons, ← List.map_cons]
        simp [tagText, String.append_assoc]
      · have hlength := List.Perm.length_eq hsame
        simp [single] at hlength
        omega

/-- A tag map has a string of its own, exactly if it is plain. -/
theorem plain_iff : t.Plain ↔
    ∀ u, getTagString (some t) = getTagString (some u) → t.Same u := by
  refine ⟨fun h u hstring => h.same hstring, fun h => ?_⟩
  have hnone : ¬ ∃ u, getTagString (some t) = getTagString (some u) ∧ ¬ t.Same u := by
    rintro ⟨u, hstring, hother⟩
    exact hother (h u hstring)
  unfold Plain
  match ht : t.entries with
  | [] => trivial
  | [(key, value)] =>
      exact ⟨fun hkey => hnone (exists_other_of_key ht hkey),
        fun hvalue => hnone (exists_other_of_value ht hvalue)⟩
  | _ :: _ :: _ => exact hnone (exists_other_of_two (by simp [ht]))

end TagMap

/-! ## The backend as a store of encoded series -/

/-- What the backend keeps a series under. -/
def codeOf (s : String × TagMap) : String × String :=
  (s.1, getTagString (some s.2))

theorem SameSeries.codeOf_eq {s t : String × TagMap} (h : SameSeries s t) :
    codeOf s = codeOf t :=
  Prod.ext h.1 h.2.getTagString_eq

theorem getTagString_tagsOr (tags : Option TagMap) :
    getTagString (some (tagsOr tags)) = getTagString tags := by
  cases tags with
  | none => rfl
  | some _ => rfl

namespace MetricCall

/-- What a call makes of a counter of its series. -/
def countUpdate (call : MetricCall) (total : Int) : Int :=
  total + call.increment

/-- What a call makes of a gauge of its series. -/
def gaugeUpdate (call : MetricCall) (last : Option Rat) : Option Rat :=
  call.reading.or last

end MetricCall

theorem afterCalls_concat (calls : List MetricCall) (call : MetricCall) :
    afterCalls (calls ++ [call]) = call.record (afterCalls calls) := by
  unfold afterCalls
  rw [List.foldl_concat]

def counterAt (backend : MetricBackend) (code : String × String) : Int :=
  (valueAt backend.counters code.1 code.2).getD 0

def gaugeAt (backend : MetricBackend) (code : String × String) : Option Rat :=
  valueAt backend.gauges code.1 code.2

/-- **One call**, on the counters. -/
theorem counterAt_record (backend : MetricBackend) (call : MetricCall) (code : String × String) :
    counterAt (call.record backend) code =
      if codeOf call.series = code then call.countUpdate (counterAt backend code)
      else counterAt backend code := by
  cases call with
  | counter name value tags =>
      have hcode : codeOf (MetricCall.counter name value tags).series =
          (name, getTagString tags) := congrArg (Prod.mk name) (getTagString_tagsOr tags)
      rw [hcode]
      unfold counterAt
      show (valueAt (setIn backend.counters name (getTagString tags) (0 + value) (· + value))
        code.1 code.2).getD 0 = _
      rw [valueAt_setIn]
      split
      · cases valueAt backend.counters code.1 code.2 <;> rfl
      · rfl
  | gauge name value tags =>
      have hkeep : MetricCall.countUpdate (.gauge name value tags) (counterAt backend code) =
          counterAt backend code := Int.add_zero _
      rw [hkeep, ite_self]
      rfl
  | histogram timestamp name value tags =>
      have hkeep : MetricCall.countUpdate (.histogram timestamp name value tags)
          (counterAt backend code) = counterAt backend code := Int.add_zero _
      rw [hkeep, ite_self]
      rfl

/-- **One call**, on the gauges. -/
theorem gaugeAt_record (backend : MetricBackend) (call : MetricCall) (code : String × String) :
    gaugeAt (call.record backend) code =
      if codeOf call.series = code then call.gaugeUpdate (gaugeAt backend code)
      else gaugeAt backend code := by
  cases call with
  | gauge name value tags =>
      have hcode : codeOf (MetricCall.gauge name value tags).series =
          (name, getTagString tags) := congrArg (Prod.mk name) (getTagString_tagsOr tags)
      rw [hcode]
      unfold gaugeAt
      show valueAt (setIn backend.gauges name (getTagString tags) value fun _ => value)
        code.1 code.2 = _
      rw [valueAt_setIn]
      split
      · cases valueAt backend.gauges code.1 code.2 <;> rfl
      · rfl
  | counter name value tags => exact (ite_self _).symm
  | histogram timestamp name value tags => exact (ite_self _).symm

/-- The counters are the store of the updates of their codes. -/
theorem counterAt_afterCalls (calls : List MetricCall) (code : String × String) :
    counterAt (afterCalls calls) code =
      held MetricCall.series codeOf MetricCall.countUpdate 0 calls code := by
  induction calls using List.reverseRecOn with
  | nil => rfl
  | append_singleton calls call ih =>
      unfold held at ih ⊢
      rw [afterCalls_concat, counterAt_record, ih, foldOf_concat]

theorem gaugeAt_afterCalls (calls : List MetricCall) (code : String × String) :
    gaugeAt (afterCalls calls) code =
      held MetricCall.series codeOf MetricCall.gaugeUpdate none calls code := by
  induction calls using List.reverseRecOn with
  | nil => rfl
  | append_singleton calls call ih =>
      unfold held at ih ⊢
      rw [afterCalls_concat, gaugeAt_record, ih, foldOf_concat]

/-- The updates of one series add up to the sum of its increments. -/
theorem own_countUpdate (calls : List MetricCall) (s : String × TagMap) :
    own MetricCall.series SameSeries MetricCall.countUpdate 0 calls s =
      ((callsOf calls s).map MetricCall.increment).sum := by
  unfold own foldOf callsOf
  induction calls.filter (fun call => SameSeries call.series s) using List.reverseRecOn with
  | nil => rfl
  | append_singleton l call ih =>
      rw [List.foldl_append, ih, List.map_append, List.sum_append]
      simp [MetricCall.countUpdate]

theorem own_gaugeUpdate (calls : List MetricCall) (s : String × TagMap) :
    own MetricCall.series SameSeries MetricCall.gaugeUpdate none calls s =
      ((callsOf calls s).filterMap MetricCall.reading).getLast? := by
  unfold own foldOf callsOf
  induction calls.filter (fun call => SameSeries call.series s) using List.reverseRecOn with
  | nil => rfl
  | append_singleton l call ih =>
      rw [List.foldl_append, ih, List.filterMap_append, List.getLast?_append]
      simp only [List.foldl_cons, List.foldl_nil, MetricCall.gaugeUpdate, List.filterMap_cons,
        List.filterMap_nil]
      cases call.reading <;> rfl

theorem keepsSeries_iff_exact (calls : List MetricCall) :
    KeepsSeries calls ↔
      Exact MetricCall.series codeOf SameSeries MetricCall.countUpdate 0 calls ∧
        Exact MetricCall.series codeOf SameSeries MetricCall.gaugeUpdate none calls := by
  have hcount : ∀ s, counterValue (afterCalls calls) s =
      held MetricCall.series codeOf MetricCall.countUpdate 0 calls (codeOf s) :=
    fun s => counterAt_afterCalls calls (codeOf s)
  have hgauge : ∀ s, gaugeValue (afterCalls calls) s =
      held MetricCall.series codeOf MetricCall.gaugeUpdate none calls (codeOf s) :=
    fun s => gaugeAt_afterCalls calls (codeOf s)
  constructor
  · rintro ⟨hcounter, hgauges⟩
    exact ⟨fun s => by rw [own_countUpdate, ← hcounter, hcount],
      fun s => by rw [own_gaugeUpdate, ← hgauges, hgauge]⟩
  · rintro ⟨hcounter, hgauges⟩
    exact ⟨fun s => by rw [hcount, hcounter, own_countUpdate],
      fun s => by rw [hgauge, hgauges, own_gaugeUpdate]⟩

/-- The values of one series are its own, unless a call of another one had its code. -/
theorem values_of_alone {calls : List MetricCall} {s : String × TagMap}
    (h : ∀ call ∈ calls, codeOf call.series = codeOf s → SameSeries call.series s) :
    counterValue (afterCalls calls) s = ((callsOf calls s).map MetricCall.increment).sum ∧
      gaugeValue (afterCalls calls) s =
        ((callsOf calls s).filterMap MetricCall.reading).getLast? := by
  have hiff : ∀ call ∈ calls, codeOf call.series = codeOf s ↔ SameSeries call.series s :=
    fun call hcall => ⟨h call hcall, SameSeries.codeOf_eq⟩
  constructor
  · rw [← own_countUpdate, ← EncodedSeries.held_eq_own hiff]
    exact counterAt_afterCalls calls (codeOf s)
  · rw [← own_gaugeUpdate, ← EncodedSeries.held_eq_own hiff]
    exact gaugeAt_afterCalls calls (codeOf s)

/-! ## Runs -/

/-- The call changes no value that is held for another tag map. -/
def MetricCall.KeepsApart : MetricCall → Prop
  | .counter _ value tags => value = 0 ∨ (tagsOr tags).Plain
  | .gauge _ _ tags => (tagsOr tags).Plain
  | .histogram .. => True

/-- A series is alone under its code, exactly if its tag map is plain. -/
theorem plain_iff_alone (s : String × TagMap) :
    s.2.Plain ↔ ∀ t, codeOf s = codeOf t → SameSeries s t := by
  rw [TagMap.plain_iff]
  constructor
  · intro h t hcode
    exact ⟨(Prod.mk.inj hcode).1, h t.2 (Prod.mk.inj hcode).2⟩
  · intro h u hstring
    exact (h (s.1, u) (Prod.ext rfl hstring)).2

/-- A gauge that is set has been set by a call of its series. -/
theorem exists_gauge_of_own {calls : List MetricCall} {s : String × TagMap} {value : Rat}
    (h : own MetricCall.series SameSeries MetricCall.gaugeUpdate none calls s = some value) :
    ∃ name tags, MetricCall.gauge name value tags ∈ calls ∧ SameSeries (name, tagsOr tags) s := by
  rw [own_gaugeUpdate] at h
  obtain ⟨call, hcall, hreading⟩ := List.mem_filterMap.mp (List.mem_of_getLast? h)
  obtain ⟨hmem, hsame⟩ := List.mem_filter.mp hcall
  cases call with
  | counter => cases hreading
  | histogram => cases hreading
  | gauge name reading tags =>
      obtain rfl : reading = value := Option.some.inj hreading
      exact ⟨name, tags, hmem, of_decide_eq_true hsame⟩

/-- **One call.** It keeps the series apart exactly if it meets its condition. The calls before
    it have met theirs, so that no gauge holds a reading of another series. -/
theorem keepsSeries_concat_iff {calls : List MetricCall} (hcalls : ∀ call ∈ calls, call.KeepsApart)
    (h : KeepsSeries calls) (call : MetricCall) :
    KeepsSeries (calls ++ [call]) ↔ call.KeepsApart := by
  obtain ⟨hcounter, hgauge⟩ := (keepsSeries_iff_exact calls).mp h
  have hsame : ∀ s t, SameSeries s t → codeOf s = codeOf t := fun _ _ h => h.codeOf_eq
  rw [keepsSeries_iff_exact, EncodedSeries.exact_concat_iff hsame hcounter call,
    EncodedSeries.exact_concat_iff hsame hgauge call]
  cases call with
  | histogram timestamp name value tags =>
      exact ⟨fun _ => trivial, fun _ => ⟨fun _ _ _ => Int.add_zero _, fun _ _ _ => rfl⟩⟩
  | counter name value tags =>
      constructor
      · rintro ⟨hcount, -⟩
        by_cases hzero : value = 0
        · exact Or.inl hzero
        · refine Or.inr ((plain_iff_alone (name, tagsOr tags)).mpr fun t hcode => ?_)
          by_contra hother
          have hadd := hcount t hcode hother
          exact hzero (by simpa [MetricCall.countUpdate, MetricCall.increment] using hadd)
      · rintro (rfl | hplain)
        · exact ⟨fun _ _ _ => Int.add_zero _, fun _ _ _ => rfl⟩
        · have halone := (plain_iff_alone (name, tagsOr tags)).mp hplain
          exact ⟨fun t hcode hother => absurd (halone t hcode) hother, fun _ _ _ => rfl⟩
  | gauge name value tags =>
      constructor
      · rintro ⟨-, hlast⟩
        refine (plain_iff_alone (name, tagsOr tags)).mpr fun t hcode => ?_
        by_contra hother
        have hset : some value = _ := hlast t hcode hother
        obtain ⟨name', tags', hmem, hsame⟩ := exists_gauge_of_own hset.symm
        have halone := (plain_iff_alone (name', tagsOr tags')).mp (hcalls _ hmem)
        have hback := halone (name, tagsOr tags) (hsame.codeOf_eq.trans hcode.symm)
        exact hother ⟨hback.1.symm.trans hsame.1, hback.2.symm.trans hsame.2⟩
      · intro hplain
        have halone := (plain_iff_alone (name, tagsOr tags)).mp hplain
        exact ⟨fun _ _ _ => Int.add_zero _,
          fun t hcode hother => absurd (halone t hcode) hother⟩

theorem keepsSeries_nil : KeepsSeries [] :=
  ⟨fun _ => rfl, fun _ => rfl⟩

/-- **Series.** A sequence of calls mixes no series at any time, exactly if its increments and
    its readings are those of plain tag maps. -/
theorem keepsSeries_iff (calls : List MetricCall) :
    (∀ before, before <+: calls → KeepsSeries before) ↔ ∀ call ∈ calls, call.KeepsApart := by
  induction calls using List.reverseRecOn with
  | nil =>
      constructor
      · intro _ call hcall
        cases hcall
      · intro _ before hbefore
        rw [List.prefix_nil.mp hbefore]
        exact keepsSeries_nil
  | append_singleton calls call ih =>
      constructor
      · intro h
        have hearlier := ih.mp fun before hbefore =>
          h before (hbefore.trans (List.prefix_append _ _))
        have hlast := (keepsSeries_concat_iff hearlier (h calls (List.prefix_append _ _)) call).mp
          (h _ List.prefix_rfl)
        intro other hother
        rcases List.mem_append.mp hother with hother | hother
        · exact hearlier other hother
        · rwa [List.mem_singleton.mp hother]
      · intro h before hbefore
        have hearlier : ∀ other ∈ calls, other.KeepsApart :=
          fun other hother => h other (List.mem_append_left _ hother)
        have hkeeps := ih.mpr hearlier
        rcases List.prefix_concat_iff.mp hbefore with rfl | hbefore
        · exact (keepsSeries_concat_iff hearlier (hkeeps calls List.prefix_rfl) call).mpr
            (h call (by simp))
        · exact hkeeps before hbefore

/-- The samples of a histogram are those recorded under its name, with their tag maps. -/
theorem samples_afterCalls (calls : List MetricCall) (name : String) :
    ((afterCalls calls).histograms.lookup name).getD [] =
      (calls.filter fun call => call.series.1 = name).filterMap MetricCall.sample := by
  induction calls using List.reverseRecOn with
  | nil => rfl
  | append_singleton calls call ih =>
      rw [afterCalls_concat, List.filter_append, List.filterMap_append, ← ih]
      have hnone : call.sample = none →
          ([call].filter fun call => call.series.1 = name).filterMap MetricCall.sample = [] := by
        intro hsample
        refine List.filterMap_eq_nil_iff.mpr fun other hother => ?_
        rwa [List.mem_singleton.mp (List.mem_of_mem_filter hother)]
      cases call with
      | counter => rw [hnone rfl, List.append_nil]; rfl
      | gauge => rw [hnone rfl, List.append_nil]; rfl
      | histogram timestamp own value tags =>
          show ((upsert (afterCalls calls).histograms own [⟨timestamp, value, tagsOr tags⟩]
            (· ++ [⟨timestamp, value, tagsOr tags⟩])).lookup name).getD [] = _
          rw [lookup_upsert]
          by_cases hname : own = name
          · subst hname
            have hfilter : [MetricCall.histogram timestamp own value tags].filter
                (fun call => call.series.1 = own) = [.histogram timestamp own value tags] :=
              List.filter_cons_of_pos (by simp [MetricCall.series])
            rw [if_pos rfl, hfilter]
            cases (afterCalls calls).histograms.lookup own <;> rfl
          · have hfilter : [MetricCall.histogram timestamp own value tags].filter
                (fun call => call.series.1 = name) = [] :=
              List.filter_cons_of_neg (by simp [MetricCall.series, hname])
            rw [if_neg (Ne.symm hname), hfilter]
            exact (List.append_nil _).symm

/-- Requests of the path `/a,status=200`, and requests of `/a` that were answered with 200. -/
def wholePath : TagMap :=
  .single "path" "/a,status=200"

def answeredPath : TagMap :=
  ⟨[("path", "/a"), ("status", "200")], by decide⟩

/-- Two requests in one counter: each of their series has one. -/
theorem not_keepsSeries_paths :
    ¬ KeepsSeries [.counter "requests" 1 (some wholePath),
        .counter "requests" 1 (some answeredPath)] ∧
      getTagString (some wholePath) = "path=/a,status=200" ∧
      getTagString (some answeredPath) = "path=/a,status=200" := by
  refine ⟨fun h => ?_, by decide, by decide⟩
  have hheld := h.counter ("requests", wholePath)
  exact absurd hheld (by decide)

end AgentCorp.Observability
